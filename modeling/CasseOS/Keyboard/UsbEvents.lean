import CasseOS.Keyboard.UsbModifiers

/-! # The events of a boot report

`keyboard_usb_on_boot_report` dispatches the events of the modifier keys, then
the releases, then the presses. Here they are as lists; the keycode of a press
depends on the modifier word the events before it leave. -/

namespace CasseOS.Keyboard
open Screen

/- The usages in the key slots of a report. -/
def usages (r : Report) : List UInt8 := keySlots.map r

/- An event of the release or the press loop, with the usage it is about and the
modifier word in which it is emitted. -/
structure UsageEvent where
  usage : UInt8
  modsState : Mods
  event : KeyEvent
  deriving DecidableEq

def modifierEvent (prev now : Mods) (devId : UInt8) (m : Mods × Keycode) : Option KeyEvent :=
  if (prev ^^^ now) &&& m.1 ≠ 0 then
    some ⟨if decide (now &&& m.1 ≠ 0) then .press else .release, m.2, now, .usb, devId⟩
  else none

def modifierEvents (prev now : Mods) (devId : UInt8) : List KeyEvent :=
  modifierMap.filterMap (modifierEvent prev now devId)

def releaseEvent (mods : Mods) (devId : UInt8) (report : Report) (k : Kbd) (u : UInt8) :
    Option UsageEvent :=
  if (u ≠ 0 ∧ reportContains report u = false) ∧ releaseCode k u ≠ kcNone then
    some ⟨u, k.mods, ⟨.release, releaseCode k u, mods, .usb, devId⟩⟩
  else none

def pressEvent (mods : Mods) (devId : UInt8) (prev : Report) (k : Kbd) (u : UInt8) :
    Option UsageEvent :=
  if (u ≠ 0 ∧ reportContains prev u = false) ∧ pressCode k u ≠ kcNone then
    some ⟨u, k.mods, ⟨.press, pressCode k u, mods, .usb, devId⟩⟩
  else none

def withMods (k : Kbd) (events : List KeyEvent) : Kbd := {k with mods := events.foldl modsAfter k.mods}

/- The events of a loop over usages. -/
def loopEvents (event : Kbd → UInt8 → Option UsageEvent) : Kbd → List UInt8 → List UsageEvent
  | _, [] => []
  | k, u :: us =>
    let now := (event k u).toList
    now ++ loopEvents event (withMods k (now.map UsageEvent.event)) us

theorem mem_loopEvents {event : Kbd → UInt8 → Option UsageEvent} {us : List UInt8} {e : UsageEvent}
    {k : Kbd} (h : e ∈ loopEvents event k us) :
    ∃ k u, e ∈ event k u := by
  induction us generalizing k with
  | nil => exact absurd h List.not_mem_nil
  | cons u us ih =>
    rw [loopEvents, List.mem_append] at h
    obtain hnow | hlater := h
    · exact ⟨k, u, Option.mem_toList.mp hnow⟩
    · exact ih hlater

/- The loops have no events of modifier keys. -/
theorem releaseEvent_plain {mods : Mods} {devId u : UInt8} {report : Report} {k : Kbd}
    {e : UsageEvent} (h : e ∈ releaseEvent mods devId report k u) : Plain e.event.code := by
  unfold releaseEvent at h
  split at h
  · cases h
    exact releaseCode_plain u k
  · cases h

theorem pressEvent_plain {mods : Mods} {devId u : UInt8} {prev : Report} {k : Kbd}
    {e : UsageEvent} (h : e ∈ pressEvent mods devId prev k u) : Plain e.event.code := by
  unfold pressEvent at h
  split at h
  · cases h
    exact pressCode_plain u k
  · cases h

structure ReportEvents where
  modifiers : List KeyEvent
  releases : List UsageEvent
  presses : List UsageEvent
  deriving DecidableEq

def reportEvents (k : Kbd) (devId : UInt8) (prev report : Report) : ReportEvents :=
  let mNow := modsFromHid report.modifiers
  let mPrev := modsFromHid prev.modifiers
  let modifiers := if mNow ≠ mPrev then modifierEvents mPrev mNow devId else []
  let k := withMods k modifiers
  let releases := loopEvents (releaseEvent mNow devId report) k (usages prev)
  let k := withMods k (releases.map UsageEvent.event)
  ⟨modifiers, releases, loopEvents (pressEvent mNow devId prev) k (usages report)⟩

/- In the order they are dispatched. -/
def ReportEvents.all (e : ReportEvents) : List KeyEvent :=
  e.modifiers ++ e.releases.map UsageEvent.event ++ e.presses.map UsageEvent.event

/-! ### Layouts

A key has two characters in a layout; Caps Lock and Shift both select the second. -/

def shifted (mods : Mods) : Bool := isSet mods kmCaps || isSet mods kmShift

def layoutChar (l : Layout) (sc : UInt8) (shift : Bool) : UInt8 :=
  if scAsciiQwerty.size ≤ sc.toNat then 0
  else
    let c := (if shift then tblShift l else tblNorm l).getD sc.toNat 0
    if c = 63 then 0 else c

theorem lockBits_ne_zero (mods : Mods) :
    (mods &&& kmCaps) ^^^ (mods &&& kmShift) ≠ 0 ↔ shifted mods = true := by
  have hbit : ∀ i, i < 16 → mods &&& 1#16 <<< i = if isSet mods (1#16 <<< i) then 1#16 <<< i else 0 := by
    intro i hi
    rw [isSet_bit mods hi, ← BitVec.twoPow_eq, BitVec.and_twoPow]
    rfl
  have hcaps : mods &&& kmCaps = if isSet mods kmCaps then kmCaps else 0 := hbit 8 (by decide)
  have hshift : mods &&& kmShift = if isSet mods kmShift then kmShift else 0 := hbit 0 (by decide)
  rw [hcaps, hshift, shifted]
  cases isSet mods kmCaps <;> cases isSet mods kmShift <;> decide

theorem layoutAscii_eq (k : Kbd) (sc : UInt8) (mods : Mods) :
    kbdLayoutAsciiFromSet1 k sc mods = layoutChar k.tables sc (shifted mods) := by
  unfold kbdLayoutAsciiFromSet1 layoutChar
  simp only [lockBits_ne_zero]

/-! ### They are what the driver dispatches -/

section Dispatch
variable (t : TextMode) (ks : Kbd × Console)

theorem dispatchEvents_append (l l' : List KeyEvent) :
    dispatchEvents t ks (l ++ l') = dispatchEvents t (dispatchEvents t ks l) l' :=
  List.foldl_append ..

theorem dispatch_tables (k : Kbd) (s : Console) (ev : KeyEvent) :
    (kbdDispatchEvent t k s ev).1.tables = k.tables := by
  unfold kbdDispatchEvent pushAscii
  dsimp only
  split
  · split <;> rfl
  · rfl

theorem dispatchEvents_tables (l : List KeyEvent) : (dispatchEvents t ks l).1.tables = ks.1.tables := by
  induction l generalizing ks with
  | nil => rfl
  | cons e l ih => exact (ih _).trans (dispatch_tables t ks.1 ks.2 e)

end Dispatch

/- The two keyboards look keys up alike. -/
structure SameLookup (k k' : Kbd) : Prop where
  tables : k'.tables = k.tables
  mods : k'.mods = k.mods

theorem SameLookup.refl (k : Kbd) : SameLookup k k := ⟨rfl, rfl⟩

theorem SameLookup.dispatchEvents {t : TextMode} {ks : Kbd × Console} {k : Kbd}
    (h : SameLookup k ks.1) (l : List KeyEvent) :
    SameLookup (withMods k l) (dispatchEvents t ks l).1 := by
  refine ⟨(dispatchEvents_tables t ks l).trans h.tables, ?_⟩
  rw [dispatchEvents_mods, h.mods]
  rfl

section Lookup
variable {k k' : Kbd} (h : SameLookup k k')
include h

theorem SameLookup.hidUsageToAscii (u : UInt8) (m : Mods) :
    hidUsageToAscii k' u m = hidUsageToAscii k u m := by
  simp only [Keyboard.hidUsageToAscii, kbdLayoutAsciiFromSet1, h.tables]

theorem SameLookup.releaseCode (u : UInt8) : releaseCode k' u = releaseCode k u := by
  simp only [Keyboard.releaseCode, h.hidUsageToAscii]

theorem SameLookup.pressCode (u : UInt8) : pressCode k' u = pressCode k u := by
  unfold Keyboard.pressCode kbdModsState
  dsimp only
  rw [h.mods, h.hidUsageToAscii]

theorem SameLookup.releaseEvent (mods : Mods) (devId : UInt8) (report : Report) (u : UInt8) :
    releaseEvent mods devId report k' u = releaseEvent mods devId report k u := by
  simp only [Keyboard.releaseEvent, h.releaseCode, h.mods]

theorem SameLookup.pressEvent (mods : Mods) (devId : UInt8) (prev : Report) (u : UInt8) :
    pressEvent mods devId prev k' u = pressEvent mods devId prev k u := by
  simp only [Keyboard.pressEvent, h.pressCode, h.mods]

end Lookup

section Usage
variable (t : TextMode) (mods : Mods) (devId : UInt8) (other : Report) (u : UInt8)
  (ks : Kbd × Console)

/- The bodies of the two loops: an event if the usage changed and has a keycode. -/
theorem emitKey_if (pressed : Bool) (kc : Keycode) (changed : Prop) [Decidable changed] :
    (if changed then if kc ≠ kcNone then emitKey t pressed kc mods devId ks else ks else ks) =
      dispatchEvents t ks ((if changed ∧ kc ≠ kcNone then some (UsageEvent.mk u ks.1.mods
        ⟨if pressed then .press else .release, kc, mods, .usb, devId⟩) else none).toList.map
          UsageEvent.event) := by
  by_cases hchanged : changed
  · by_cases hkc : kc ≠ kcNone
    · rw [if_pos hchanged, if_pos hkc, if_pos ⟨hchanged, hkc⟩]
      rfl
    · rw [if_pos hchanged, if_neg hkc, if_neg fun h => hkc h.2]
      rfl
  · rw [if_neg hchanged, if_neg fun h => hchanged h.1]
    rfl

theorem releaseUsage_eq : releaseUsage t mods devId other u ks =
    dispatchEvents t ks ((releaseEvent mods devId other ks.1 u).toList.map UsageEvent.event) :=
  emitKey_if t mods devId u ks false (releaseCode ks.1 u) _

theorem pressUsage_eq : pressUsage t mods devId other u ks =
    dispatchEvents t ks ((pressEvent mods devId other ks.1 u).toList.map UsageEvent.event) :=
  emitKey_if t mods devId u ks true (pressCode ks.1 u) _

end Usage

theorem foldl_loopEvents {t : TextMode} {event : Kbd → UInt8 → Option UsageEvent}
    {body : UInt8 → Kbd × Console → Kbd × Console}
    (hbody : ∀ u ks, body u ks =
      dispatchEvents t ks ((event ks.1 u).toList.map UsageEvent.event))
    (hevent : ∀ k k', SameLookup k k' → ∀ u, event k' u = event k u) (us : List UInt8) (k : Kbd)
    (ks : Kbd × Console) (hk : SameLookup k ks.1) :
    us.foldl (fun ks u => body u ks) ks =
      dispatchEvents t ks ((loopEvents event k us).map UsageEvent.event) := by
  induction us generalizing k ks with
  | nil => rfl
  | cons u us ih =>
    rw [List.foldl_cons, hbody, hevent k ks.1 hk, loopEvents, List.map_append, dispatchEvents_append]
    exact ih _ _ (hk.dispatchEvents _)

/- A loop whose body dispatches one event or none. -/
theorem foldl_filterMap {α : Type*} {t : TextMode} {event : α → Option KeyEvent}
    {body : α → Kbd × Console → Kbd × Console}
    (hbody : ∀ a ks, body a ks = dispatchEvents t ks (event a).toList) (l : List α)
    (ks : Kbd × Console) :
    l.foldl (fun ks a => body a ks) ks = dispatchEvents t ks (l.filterMap event) := by
  induction l generalizing ks with
  | nil => rfl
  | cons a l ih =>
    rw [List.foldl_cons, ih, hbody]
    cases hevent : event a with
    | none =>
      rw [List.filterMap_cons_none hevent]
      rfl
    | some e =>
      rw [List.filterMap_cons_some hevent]
      rfl

theorem emitModifierDeltas_eq (t : TextMode) (prev now : Mods) (devId : UInt8) (ks : Kbd × Console) :
    emitModifierDeltas t prev now devId ks = dispatchEvents t ks (modifierEvents prev now devId) := by
  have hbody : ∀ (m : Mods × Keycode) (ks : Kbd × Console), (if (prev ^^^ now) &&& m.1 ≠ 0 then
      emitKey t (now &&& m.1 ≠ 0) m.2 now devId ks else ks) =
        dispatchEvents t ks (modifierEvent prev now devId m).toList := by
    intro m ks
    rw [modifierEvent]
    split
    · rfl
    · rfl
  exact foldl_filterMap hbody modifierMap ks

theorem emitReport_eq (t : TextMode) (devId : UInt8) (prev report : Report) (ks : Kbd × Console) :
    emitReport t devId prev report ks =
      dispatchEvents t ks (reportEvents ks.1 devId prev report).all := by
  have hmods : (if modsFromHid (report 0) ≠ modsFromHid (prev 0) then
      emitModifierDeltas t (modsFromHid (prev 0)) (modsFromHid (report 0)) devId ks else ks) =
      dispatchEvents t ks (reportEvents ks.1 devId prev report).modifiers := by
    unfold reportEvents
    dsimp only
    split
    · exact emitModifierDeltas_eq ..
    · rfl
  have hlookup := (SameLookup.refl ks.1).dispatchEvents (t := t)
    (reportEvents ks.1 devId prev report).modifiers
  have hreleases := foldl_loopEvents (releaseUsage_eq t (modsFromHid (report 0)) devId report)
    (fun _ _ h u => h.releaseEvent (modsFromHid (report 0)) devId report u) (usages prev) _ _ hlookup
  have hpresses := foldl_loopEvents (pressUsage_eq t (modsFromHid (report 0)) devId prev)
    (fun _ _ h u => h.pressEvent (modsFromHid (report 0)) devId prev u) (usages report) _ _
    (hlookup.dispatchEvents (t := t)
      ((reportEvents ks.1 devId prev report).releases.map UsageEvent.event))
  rw [ReportEvents.all, dispatchEvents_append, dispatchEvents_append]
  refine Eq.trans ?_ hpresses
  unfold emitReport
  dsimp only
  rw [hmods, usages, List.foldl_map]
  congr 1

/- The events of the next report to a slot. -/
def eventsAt (sys : KeyboardSystem) (i : Fin maxUsbKeyboards) (report : Report) : ReportEvents :=
  reportEvents sys.kbd (sys.usb i).devId (sys.usb i).lastReport report

structure Reported (t : TextMode) (sys : KeyboardSystem) (i : Fin maxUsbKeyboards) (report : Report)
    (sys' : KeyboardSystem) : Prop where
  dispatched : (sys'.kbd, sys'.console) =
    dispatchEvents t (sys.kbd, sys.console) (eventsAt sys i report).all
  enabled : Keyboard.enabled (sys'.usb i) = true
  last : (sys'.usb i).lastReport = report

theorem onBootReport_reported (t : TextMode) (sys : KeyboardSystem) (i : Fin maxUsbKeyboards)
    (report : Report) (h : enabled (sys.usb i) = true) :
    Reported t sys i report (keyboardUsbOnBootReport t sys i.val report) := by
  have hi : (0 : ℤ) ≤ i.val ∧ (i.val : ℤ) < maxUsbKeyboards := ⟨by omega, by exact_mod_cast i.isLt⟩
  have hemit := emitReport_eq t (sys.usb i).devId (sys.usb i).lastReport report
    (sys.kbd, sys.console)
  simp only [keyboardUsbOnBootReport, dif_pos hi, Int.toNat_natCast, Fin.eta, if_pos h, setSlot]
  refine ⟨hemit, ?_, ?_⟩
  · simp only [Function.update_self]
    exact h
  · simp only [Function.update_self]

theorem Reported.tables {t : TextMode} {sys sys' : KeyboardSystem} {i : Fin maxUsbKeyboards}
    {report : Report} (h : Reported t sys i report sys') : sys'.kbd.tables = sys.kbd.tables :=
  (congrArg (fun ks => ks.1.tables) h.dispatched).trans (dispatchEvents_tables ..)

theorem Reported.mods {t : TextMode} {sys sys' : KeyboardSystem} {i : Fin maxUsbKeyboards}
    {report : Report} (h : Reported t sys i report sys') :
    sys'.kbd.mods = (eventsAt sys i report).all.foldl modsAfter sys.kbd.mods :=
  (congrArg (fun ks => ks.1.mods) h.dispatched).trans (dispatchEvents_mods ..)

end CasseOS.Keyboard
