import CasseOS.Keyboard.HotPlug
import CasseOS.Keyboard.Ps2
import CasseOS.Keyboard.UsbEvents
import CasseOS.Lib.Channel
import CasseOS.Usb.Uhci

/-! # What the keyboards emit

Boot reports and the bytes of the PS/2 controller become events that depend on
the last reports, the layout, the modifier word and the prefix, and on nothing of
the queues. `decode` is that translation, of a whole sequence of inputs. -/

namespace CasseOS.System
open Keyboard Screen Usb

/- A report that a pipe passes on, or a byte read from port `0x60`. -/
inductive Input where
  | report (pipe : Fin uhciMaxKbdPipes) (devIndex : ℤ) (report : Report)
  | scan (sc : UInt8)

def receive (t : TextMode) (sys : KeyboardSystem) : Input → KeyboardSystem
  | .report _ devIndex report => keyboardUsbOnBootReport t sys devIndex report
  | .scan sc =>
    let (kbd, console) := ps2Irq1Handler t (sys.kbd, sys.console) sc
    {sys with kbd, console}

/-! ### The translation -/

structure Decoder where
  usb : Fin maxUsbKeyboards → UsbKeyboardDevice
  tables : Layout
  mods : Mods
  ps2E0 : Bool

def decoderOf (sys : KeyboardSystem) : Decoder :=
  ⟨sys.usb, sys.kbd.tables, sys.kbd.mods, sys.kbd.ps2E0⟩

namespace Decoder

def kbd (d : Decoder) : Kbd := {kbdStatic with tables := d.tables, mods := d.mods, ps2E0 := d.ps2E0}

/- The enabled keyboard in the slot. -/
def slotAt (d : Decoder) (devIndex : ℤ) : Option (Fin maxUsbKeyboards) :=
  if h : 0 ≤ devIndex ∧ devIndex < maxUsbKeyboards then
    if enabled (d.usb ⟨devIndex.toNat, slot_lt h⟩) then some ⟨devIndex.toNat, slot_lt h⟩ else none
  else none

/- Each event with the modifier word it leaves. -/
def stamped : Mods → List KeyEvent → List KeyEvent
  | _, [] => []
  | mods, e :: events => {e with mods := modsAfter mods e} :: stamped (modsAfter mods e) events

def reportEventsAt (d : Decoder) (i : Fin maxUsbKeyboards) (report : Report) : List KeyEvent :=
  (reportEvents d.kbd (d.usb i).devId (d.usb i).lastReport report).all

def events (d : Decoder) : Input → List KeyEvent
  | .report _ devIndex report =>
    match d.slotAt devIndex with
    | some i => stamped d.mods (d.reportEventsAt i report)
    | none => []
  | .scan sc => stamped (ps2Prepared d.kbd sc).mods (ps2Event d.kbd sc).toList

def next (d : Decoder) : Input → Decoder
  | .report _ devIndex report =>
    match d.slotAt devIndex with
    | some i => {d with
        usb := Function.update d.usb i
          {d.usb i with lastMods := report.modifiers, lastReport := report}
        mods := (d.reportEventsAt i report).foldl modsAfter d.mods}
    | none => d
  | .scan sc => {d with
      mods := (ps2Event d.kbd sc).toList.foldl modsAfter (ps2Prepared d.kbd sc).mods
      ps2E0 := (ps2Prepared d.kbd sc).ps2E0}

def decode : Decoder → List Input → List KeyEvent
  | _, [] => []
  | d, i :: inputs => d.events i ++ (d.next i).decode inputs

def after (d : Decoder) (inputs : List Input) : Decoder := inputs.foldl next d

theorem decode_append (d : Decoder) (inputs later : List Input) :
    d.decode (inputs ++ later) = d.decode inputs ++ (d.after inputs).decode later := by
  induction inputs generalizing d with
  | nil => rfl
  | cons i inputs ih =>
    rw [List.cons_append, decode, ih, decode, List.append_assoc]
    rfl

end Decoder

/-! ### The keyboard layer computes it -/

section Dispatch
variable (t : TextMode) (ks : Kbd × Console)

theorem dispatchEvents_events (l : List KeyEvent) :
    (dispatchEvents t ks l).1.events = ks.1.events.pushAll (Decoder.stamped ks.1.mods l) := by
  induction l generalizing ks with
  | nil => rfl
  | cons e l ih =>
    have hrest := ih (kbdDispatchEvent t ks.1 ks.2 e)
    rw [dispatch_events, dispatch_mods] at hrest
    exact hrest

theorem dispatch_ps2E0 (k : Kbd) (s : Console) (e : KeyEvent) :
    (kbdDispatchEvent t k s e).1.ps2E0 = k.ps2E0 := by
  unfold kbdDispatchEvent pushAscii
  dsimp only
  split
  · split <;> rfl
  · rfl

theorem dispatchEvents_ps2E0 (l : List KeyEvent) :
    (dispatchEvents t ks l).1.ps2E0 = ks.1.ps2E0 := by
  induction l generalizing ks with
  | nil => rfl
  | cons e l ih => exact (ih _).trans (dispatch_ps2E0 t ks.1 ks.2 e)

end Dispatch

section Lookup
variable {k k' : Kbd}

theorem sameLookup_withMods (h : SameLookup k k') (l : List KeyEvent) :
    SameLookup (withMods k l) (withMods k' l) := by
  refine ⟨h.tables, ?_⟩
  simp only [withMods, h.mods]

theorem loopEvents_congr {event : Kbd → UInt8 → Option UsageEvent}
    (hevent : ∀ k k', SameLookup k k' → ∀ u, event k' u = event k u) (us : List UInt8)
    (h : SameLookup k k') : loopEvents event k' us = loopEvents event k us := by
  induction us generalizing k k' with
  | nil => rfl
  | cons u us ih =>
    simp only [loopEvents, hevent k k' h u]
    rw [ih (sameLookup_withMods h _)]

theorem reportEvents_congr (h : SameLookup k k') (devId : UInt8) (prev report : Report) :
    reportEvents k' devId prev report = reportEvents k devId prev report := by
  have hreleases := fun (us : List UInt8) (k k' : Kbd) (h : SameLookup k k') =>
    loopEvents_congr (fun _ _ h u => h.releaseEvent (modsFromHid report.modifiers) devId report u)
      us h
  have hpresses := fun (us : List UInt8) (k k' : Kbd) (h : SameLookup k k') =>
    loopEvents_congr (fun _ _ h u => h.pressEvent (modsFromHid report.modifiers) devId prev u) us h
  unfold reportEvents
  simp only
  rw [hreleases _ _ _ (sameLookup_withMods h _),
    hpresses _ _ _ (sameLookup_withMods (sameLookup_withMods h _) _)]

theorem translatePs2Ascii_congr (h : SameLookup k k') (raw : UInt8) :
    translatePs2Ascii k' raw = translatePs2Ascii k raw := by
  simp only [translatePs2Ascii, kbdLayoutAsciiFromSet1, h.tables, h.mods]

theorem plainEvent_congr (h : SameLookup k k') (raw : UInt8) (make : Bool) :
    plainEvent k' raw make = plainEvent k raw make := by
  simp only [plainEvent, translatePs2Ascii_congr h, h.mods]

theorem ps2Prepared_congr (h : SameLookup k k') (he : k'.ps2E0 = k.ps2E0) (sc : UInt8) :
    SameLookup (ps2Prepared k sc) (ps2Prepared k' sc) ∧
      (ps2Prepared k' sc).ps2E0 = (ps2Prepared k sc).ps2E0 := by
  unfold ps2Prepared
  rw [he, h.mods]
  split
  · exact ⟨⟨h.tables, rfl⟩, rfl⟩
  · split
    · exact ⟨⟨h.tables, rfl⟩, rfl⟩
    · exact ⟨⟨h.tables, rfl⟩, rfl⟩

theorem ps2Event_congr (h : SameLookup k k') (he : k'.ps2E0 = k.ps2E0) (sc : UInt8) :
    ps2Event k' sc = ps2Event k sc := by
  unfold ps2Event
  rw [he, h.mods, plainEvent_congr (ps2Prepared_congr h he sc).1]

end Lookup

theorem ps2Prepared_frame (k : Kbd) (sc : UInt8) :
    (ps2Prepared k sc).events = k.events ∧ (ps2Prepared k sc).tables = k.tables := by
  unfold ps2Prepared
  split
  · exact ⟨rfl, rfl⟩
  · split <;> exact ⟨rfl, rfl⟩

section Receive
variable (t : TextMode) (sys : KeyboardSystem)

theorem sameLookup_decoder : SameLookup (decoderOf sys).kbd sys.kbd := ⟨rfl, rfl⟩

theorem receive_scan (sc : UInt8) :
    decoderOf (receive t sys (.scan sc)) = (decoderOf sys).next (.scan sc) ∧
      (receive t sys (.scan sc)).kbd.events =
        sys.kbd.events.pushAll ((decoderOf sys).events (.scan sc)) := by
  obtain ⟨hprepared, hprefix⟩ := ps2Prepared_congr (sameLookup_decoder sys) rfl sc
  have hevent := ps2Event_congr (sameLookup_decoder sys) rfl sc
  obtain ⟨hevents, htables⟩ := ps2Prepared_frame sys.kbd sc
  have hkbd : (receive t sys (.scan sc)).kbd =
      (dispatchEvents t (ps2Prepared sys.kbd sc, sys.console) (ps2Event sys.kbd sc).toList).1 := 
    congrArg Prod.fst (ps2Irq1Handler_eq t (sys.kbd, sys.console) sc)
  constructor
  · have husb : (receive t sys (.scan sc)).usb = sys.usb := rfl
    rw [decoderOf, hkbd, husb, dispatchEvents_tables, dispatchEvents_mods, dispatchEvents_ps2E0,
      htables, hprefix, hprepared.mods, hevent]
    rfl
  · rw [hkbd, dispatchEvents_events, hevents, hprepared.mods, hevent]
    rfl

theorem receive_report (pipe : Fin uhciMaxKbdPipes) (devIndex : ℤ) (report : Report) :
    decoderOf (receive t sys (.report pipe devIndex report)) =
        (decoderOf sys).next (.report pipe devIndex report) ∧
      (receive t sys (.report pipe devIndex report)).kbd.events =
        sys.kbd.events.pushAll ((decoderOf sys).events (.report pipe devIndex report)) := by
  unfold receive keyboardUsbOnBootReport Decoder.next Decoder.events Decoder.slotAt
  by_cases hindex : 0 ≤ devIndex ∧ devIndex < maxUsbKeyboards
  · simp only [dif_pos hindex]
    by_cases henabled : enabled (sys.usb ⟨devIndex.toNat, slot_lt hindex⟩) = true
    · have hevents : (reportEvents sys.kbd (sys.usb ⟨devIndex.toNat, slot_lt hindex⟩).devId
          (sys.usb ⟨devIndex.toNat, slot_lt hindex⟩).lastReport report).all =
          (decoderOf sys).reportEventsAt ⟨devIndex.toNat, slot_lt hindex⟩ report :=
        congrArg ReportEvents.all (reportEvents_congr (sameLookup_decoder sys) _ _ _)
      have hon : enabled ((decoderOf sys).usb ⟨devIndex.toNat, slot_lt hindex⟩) = true := henabled
      simp only [if_pos henabled, if_pos hon, emitReport_eq, hevents]
      constructor
      · simp only [decoderOf, setSlot, dispatchEvents_tables, dispatchEvents_mods,
          dispatchEvents_ps2E0]
      · exact dispatchEvents_events t (sys.kbd, sys.console) _
    · have hoff : ¬enabled ((decoderOf sys).usb ⟨devIndex.toNat, slot_lt hindex⟩) = true := henabled
      simp only [if_neg henabled, if_neg hoff]
      exact ⟨trivial, rfl⟩
  · simp only [dif_neg hindex]
    exact ⟨trivial, rfl⟩

theorem receive_spec (input : Input) :
    decoderOf (receive t sys input) = (decoderOf sys).next input ∧
      (receive t sys input).kbd.events = sys.kbd.events.pushAll ((decoderOf sys).events input) := by
  cases input with
  | report pipe devIndex report => exact receive_report t sys pipe devIndex report
  | scan sc => exact receive_scan t sys sc

end Receive

end CasseOS.System
