import CasseOS.Keyboard.Agreement
import CasseOS.Keyboard.Alternation

/-! # The case of letters on a USB keyboard

The layout lookup picks the shifted table when the Caps Lock bit or the Shift
bit of the modifier word is set. Shift does not undo Caps Lock, and the Shift bit
may be clear while the left Shift key is down. -/

namespace CasseOS.Keyboard
open Screen

/-! ### Letter keys -/

def usageCapsLock : UInt8 := 0x39

/- The key types a lower-case letter. -/
def letterKey (l : Layout) (u : UInt8) : Bool :=
  97 ≤ usageChar l u false && usageChar l u false ≤ 122

/- The keycodes of the two letters of a key. -/
def lowerCase (l : Layout) (u : UInt8) : Keycode := (usageChar l u false).toUInt16

def upperCase (l : Layout) (u : UInt8) : Keycode := (usageChar l u false - 32).toUInt16

def letterCheck (l : Layout) (u : UInt8) : Bool :=
  letterKey l u → usageCode l u true = upperCase l u ∧ usageCode l u false = lowerCase l u ∧
    upperCase l u ≠ lowerCase l u

/- The tables hold the upper-case letter of every letter they hold. -/
theorem letter_codes {l : Layout} {u : UInt8} (h : letterKey l u = true) (shift : Bool) :
    usageCode l u shift = upperCase l u ↔ shift = true := by
  have hcheck : hidUsageMap.all (fun m => letterCheck l m.1) = true := by
    cases l <;> decide +kernel
  cases hfind : hidUsageMap.find? fun m => m.1 = u with
  | none =>
    have hnone : usageChar l u false = 0 := by
      rw [usageChar, hidUsageToSet1, hfind]
      rfl
    rw [letterKey, hnone] at h
    exact absurd h (by decide)
  | some m =>
    have hmem := List.mem_of_find?_eq_some hfind
    obtain rfl : m.1 = u := by simpa using List.find?_some hfind
    obtain ⟨hupper, hlower, hne⟩ := of_decide_eq_true (List.all_eq_true.mp hcheck m hmem) h
    cases shift with
    | true => exact iff_of_true hupper rfl
    | false => exact iff_of_false (fun hcode => hne (hcode.symm.trans hlower)) (by decide)

/- Only the Caps Lock key has the Caps Lock keycode. -/
theorem usageCode_caps (l : Layout) (u : UInt8) (shift : Bool) :
    usageCode l u shift = kcCapsLock ↔ u = usageCapsLock := by
  constructor
  · intro h
    unfold usageCode at h
    split at h
    · have hlt := (usageChar l u shift).toNat_lt
      have hnat := congrArg UInt16.toNat h
      rw [UInt8.toNat_toUInt16] at hnat
      exact absurd hnat (Nat.ne_of_lt (Nat.lt_trans hlt (by decide)))
    · revert h
      unfold hidUsageToExtKc
      split <;> first | exact fun _ => rfl | exact fun h => absurd h (by decide)
  · rintro rfl
    cases l <;> cases shift <;> decide

/-! ### The presses of a report -/

theorem loopEvents_split {event : Kbd → UInt8 → Option UsageEvent} {us : List UInt8} {k : Kbd}
    {before after : List UsageEvent} {p : UsageEvent}
    (h : loopEvents event k us = before ++ p :: after) :
    ∃ u, p ∈ event (withMods k (before.map UsageEvent.event)) u := by
  induction us generalizing k before with
  | nil => exact absurd h.symm (by simp [loopEvents])
  | cons u us ih =>
    rw [loopEvents] at h
    cases hevent : event k u with
    | none =>
      rw [hevent] at h
      exact ih h
    | some e =>
      rw [hevent] at h
      cases before with
      | nil =>
        obtain ⟨rfl, -⟩ := List.cons.inj h
        exact ⟨u, hevent⟩
      | cons b before =>
        obtain ⟨rfl, htail⟩ := List.cons.inj h
        exact ih (k := withMods k [e.event]) htail

section Presses
variable {sys : KeyboardSystem} {i : Fin maxUsbKeyboards} {report : Report}

theorem mem_presses {p : UsageEvent} (h : p ∈ (eventsAt sys i report).presses) :
    p.event.type = .press ∧ p.event.code = usageCode sys.kbd.tables p.usage (shifted p.modsState) := by
  obtain ⟨before, after, hsplit⟩ := List.append_of_mem h
  obtain ⟨u, hmem⟩ := loopEvents_split hsplit
  obtain ⟨rfl, -⟩ := mem_pressEvent hmem
  exact ⟨rfl, pressCode_eq _ u⟩

/- The word a press is looked up in is what the events before it leave. -/
theorem press_modsState {before after : List UsageEvent} {p : UsageEvent}
    (h : (eventsAt sys i report).presses = before ++ p :: after) :
    p.modsState = ((eventsAt sys i report).modifiers ++
      (eventsAt sys i report).releases.map UsageEvent.event ++
        before.map UsageEvent.event).foldl modsAfter sys.kbd.mods := by
  obtain ⟨u, hmem⟩ := loopEvents_split h
  obtain ⟨rfl, -⟩ := mem_pressEvent hmem
  rw [List.foldl_append, List.foldl_append]
  rfl

theorem press_plain {p : UsageEvent} (h : p ∈ (eventsAt sys i report).presses) :
    Plain p.event.code := by
  obtain ⟨k, u, hmem⟩ := mem_loopEvents h
  exact pressEvent_plain hmem

end Presses

theorem foldl_plain {events : List KeyEvent} (h : ∀ e ∈ events, Plain e.code) (mods : Mods)
    (p : ModPair) : pairBits (events.foldl modsAfter mods) p = pairBits mods p := by
  induction events generalizing mods with
  | nil => rfl
  | cons e events ih =>
    rw [List.foldl_cons, ih fun e' he' => h e' (List.mem_cons_of_mem e he')]
    exact modsAfter_other (h e (List.mem_cons_self ..) p)

/- The Shift bit of a press is the one the whole report leaves. -/
theorem press_shift {t : TextMode} {sys sys' : KeyboardSystem} {i : Fin maxUsbKeyboards}
    {report : Report} {before after : List UsageEvent} {p : UsageEvent}
    (hreported : Reported t sys i report sys')
    (h : (eventsAt sys i report).presses = before ++ p :: after) :
    isSet p.modsState kmShift = (pairBits sys'.kbd.mods .shift).1 := by
  have hplain : ∀ e ∈ (p :: after).map UsageEvent.event, Plain e.code := by
    intro e he
    obtain ⟨q, hq, rfl⟩ := List.mem_map.mp he
    exact press_plain (by rw [h]; exact List.mem_append_right _ hq)
  rw [hreported.mods, ReportEvents.all, h, List.map_append, ← List.append_assoc, List.foldl_append,
    foldl_plain hplain, ← press_modsState h]
  rfl

/-! ### Caps Lock -/

/- How many of the presses are of Caps Lock. -/
def capsIn (presses : List UsageEvent) : ℕ := presses.countP fun p => p.usage = usageCapsLock

/- How often Caps Lock goes down in the reports that follow `prev`. -/
def capsPresses : Report → List Report → ℕ
  | _, [] => 0
  | prev, r :: reports => (pressedUsages prev r).count usageCapsLock + capsPresses r reports

theorem capsAfter_eq (caps : Bool) (codes : List Keycode) :
    capsAfter caps codes = (caps ^^ decide (Odd (codes.count kcCapsLock))) := by
  induction codes generalizing caps with
  | nil => cases caps <;> rfl
  | cons c codes ih =>
    rw [capsAfter, List.foldl_cons, ← capsAfter, ih]
    by_cases hc : c = kcCapsLock
    · rw [hc, List.count_cons_self, decide_eq_true rfl]
      by_cases hodd : Odd (codes.count kcCapsLock)
      · rw [decide_eq_true hodd, decide_eq_false (by simpa [Nat.odd_add_one] using hodd)]
        cases caps <;> rfl
      · rw [decide_eq_false hodd, decide_eq_true (by simpa [Nat.odd_add_one] using hodd)]
        cases caps <;> rfl
    · rw [List.count_cons_of_ne hc, decide_eq_false hc, Bool.xor_false]

theorem modifierEvents_caps (prev now : Mods) (devId : UInt8) :
    (pressCodes (modifierEvents prev now devId)).count kcCapsLock = 0 := by
  rw [List.count_eq_zero]
  intro hmem
  obtain ⟨e, he, hcode⟩ := List.mem_map.mp hmem
  obtain ⟨m, hm, hevent⟩ := List.mem_filterMap.mp (List.mem_filter.mp he).1
  have hmap : modifierMap.all (fun m => m.2 ≠ kcCapsLock) = true := by decide
  unfold modifierEvent at hevent
  split at hevent
  · cases hevent
    exact of_decide_eq_true (List.all_eq_true.mp hmap m hm) hcode
  · cases hevent

theorem loop_caps (mods : Mods) (devId : UInt8) (prev : Report) (k : Kbd) (us : List UInt8) :
    capsIn (loopEvents (pressEvent mods devId prev) k us) =
      (us.filter fun u => u ≠ 0 ∧ reportContains prev u = false).count usageCapsLock := by
  have hcode : ∀ k, pressCode k usageCapsLock ≠ kcNone := by
    intro k
    rw [pressCode_eq, (usageCode_caps _ _ _).mpr rfl]
    decide
  induction us generalizing k with
  | nil => rfl
  | cons u us ih =>
    rw [loopEvents, capsIn, List.countP_append, ← capsIn, ← capsIn, ih]
    by_cases hchanged : u ≠ 0 ∧ reportContains prev u = false
    · rw [List.filter_cons_of_pos (by simpa using hchanged), List.count_cons, Nat.add_comm]
      congr 1
      by_cases hu : u = usageCapsLock
      · subst hu
        rw [pressEvent, if_pos ⟨hchanged, hcode k⟩]
        rfl
      · rw [if_neg (by simpa using hu), capsIn, List.countP_eq_zero]
        intro p hp
        rw [(mem_pressEvent (Option.mem_toList.mp hp)).1]
        simpa using hu
    · rw [List.filter_cons_of_neg (by simpa using hchanged), pressEvent,
        if_neg fun h => hchanged h.1]
      exact Nat.zero_add _

section Caps
variable {sys : KeyboardSystem} {i : Fin maxUsbKeyboards} {report : Report}

theorem presses_caps {l : List UsageEvent} (h : ∀ p ∈ l, p ∈ (eventsAt sys i report).presses) :
    (pressCodes (l.map UsageEvent.event)).count kcCapsLock = capsIn l := by
  induction l with
  | nil => rfl
  | cons p l ih =>
    obtain ⟨htype, hcode⟩ := mem_presses (h p (List.mem_cons_self ..))
    have hcaps := usageCode_caps sys.kbd.tables p.usage (shifted p.modsState)
    rw [List.map_cons, pressCodes_cons, if_pos htype, List.count_append,
      ih fun q hq => h q (List.mem_cons_of_mem p hq), capsIn, capsIn, List.countP_cons, hcode,
      Nat.add_comm]
    simp only [List.count_singleton, beq_iff_eq, hcaps, decide_eq_true_eq]

/- Caps Lock after the modifier keys, the releases and some of the presses. -/
theorem caps_after {l : List UsageEvent} (h : ∀ p ∈ l, p ∈ (eventsAt sys i report).presses) :
    capsBit (((eventsAt sys i report).modifiers ++
      (eventsAt sys i report).releases.map UsageEvent.event ++
        l.map UsageEvent.event).foldl modsAfter sys.kbd.mods) =
      (capsBit sys.kbd.mods ^^ decide (Odd (capsIn l))) := by
  have hmods : (pressCodes (eventsAt sys i report).modifiers).count kcCapsLock = 0 := by
    unfold eventsAt reportEvents
    dsimp only
    split
    · exact modifierEvents_caps ..
    · rfl
  have hreleases : pressCodes ((eventsAt sys i report).releases.map UsageEvent.event) = [] :=
    reportEvents_release_types
  rw [foldl_caps, capsAfter_eq, pressCodes_append, pressCodes_append, hreleases, List.append_nil,
    List.count_append, hmods, Nat.zero_add, presses_caps h]

end Caps

/-! ### Runs -/

theorem xor_odd (caps : Bool) (m n : ℕ) :
    ((caps ^^ decide (Odd m)) ^^ decide (Odd n)) = (caps ^^ decide (Odd (m + n))) := by
  have hodd : decide (Odd (m + n)) = (decide (Odd m) ^^ decide (Odd n)) := by
    by_cases hm : Odd m <;> by_cases hn : Odd n <;>
      simp [Nat.odd_add, ← Nat.not_odd_iff_even, hm, hn]
  rw [hodd, Bool.xor_assoc]

theorem bootReports_caps {t : TextMode} {i : Fin maxUsbKeyboards} (reports : List Report)
    (sys : KeyboardSystem) (hen : enabled (sys.usb i) = true) :
    capsBit (bootReports t sys i reports).kbd.mods =
      (capsBit sys.kbd.mods ^^ decide (Odd (capsPresses (sys.usb i).lastReport reports))) := by
  induction reports generalizing sys with
  | nil =>
    rw [capsPresses]
    exact (Bool.xor_false _).symm
  | cons r reports ih =>
    have hreported := onBootReport_reported t sys i r hen
    have hstep : capsBit (keyboardUsbOnBootReport t sys i.val r).kbd.mods = _ :=
      (congrArg capsBit hreported.mods).trans (caps_after fun p hp => hp)
    have hcount : capsIn (eventsAt sys i r).presses =
        (pressedUsages (sys.usb i).lastReport r).count usageCapsLock := loop_caps ..
    refine (ih _ hreported.enabled).trans ?_
    rw [hstep, hcount, hreported.last, xor_odd, capsPresses]

/- A Shift key is down in the report. -/
def shiftDown (r : Report) : Bool := hidBit r.modifiers 1 || hidBit r.modifiers 5

theorem shiftDown_eq (r : Report) : (hidBits r.modifiers .shift).1 = shiftDown r := by
  unfold hidBits modsFromHid shiftDown
  generalize hidBit r.modifiers 0 = b0, hidBit r.modifiers 1 = b1, hidBit r.modifiers 2 = b2,
    hidBit r.modifiers 3 = b3
  generalize hidBit r.modifiers 4 = b4, hidBit r.modifiers 5 = b5, hidBit r.modifiers 6 = b6,
    hidBit r.modifiers 7 = b7
  revert b0 b1 b2 b3 b4 b5 b6 b7
  decide

/- A press of a letter key: the reports before, the report, and the presses of
that report before it. -/
structure LetterPress (t : TextMode) (sys : KeyboardSystem) (i : Fin maxUsbKeyboards)
    (reports pre : List Report) (r : Report) (before : List UsageEvent) (p : UsageEvent) : Prop where
  reports : ∃ post, reports = pre ++ r :: post
  presses : ∃ after, (eventsAt (bootReports t sys i pre) i r).presses = before ++ p :: after
  letter : letterKey sys.kbd.tables p.usage = true

/- Caps Lock was pressed an odd number of times before the press. -/
def capsOdd (pre : List Report) (before : List UsageEvent) : Bool :=
  decide (Odd (capsPresses (fun _ => 0) pre + capsIn before))

/- The right Shift key was the last to change, and went up over the left one. -/
def shiftLost (reports : List Report) : Bool := releasedOverLeft .shift 0 false reports

section Run
variable {t : TextMode} {sys : KeyboardSystem} {i : Fin maxUsbKeyboards}

theorem press_shifted (hen : enabled (sys.usb i) = true)
    (hlast : (sys.usb i).lastReport = fun _ => 0) (hmods : sys.kbd.mods = 0) {pre : List Report}
    {r : Report} {before after : List UsageEvent} {p : UsageEvent}
    (hp : (eventsAt (bootReports t sys i pre) i r).presses = before ++ p :: after) :
    shifted p.modsState = (capsOdd pre before || shiftDown r && !shiftLost (pre ++ [r])) := by
  have henpre := (bootReports_keeps (t := t) hen pre).1
  have hreported := onBootReport_reported t (bootReports t sys i pre) i r henpre
  have hcaps : capsBit p.modsState = capsOdd pre before := by
    rw [press_modsState hp, caps_after fun q hq => by rw [hp]; exact List.mem_append_left _ hq,
      bootReports_caps pre sys hen, xor_odd, hlast, hmods, capsOdd]
    exact Bool.false_xor _
  have hzero : pairBits sys.kbd.mods .shift =
      ((hidBits ((sys.usb i).lastReport 0) .shift).1 && !false,
        (hidBits ((sys.usb i).lastReport 0) .shift).2) := by
    rw [hmods, hlast]
    decide
  have hshift : isSet p.modsState kmShift = (shiftDown r && !shiftLost (pre ++ [r])) := by
    have hbits := bootReports_bits t i .shift (pre ++ [r]) sys false hen hzero
    have hlastm : lastModifiers 0 (pre ++ [r]) = r.modifiers := by
      rw [lastModifiers, List.getLast?_concat]
      rfl
    rw [bootReports_append, hlast, hlastm] at hbits
    rw [press_shift hreported hp, ← shiftDown_eq]
    exact congrArg Prod.fst hbits
  rw [shifted_eq, hcaps, hshift]

/- What the driver makes of a letter key. -/
theorem LetterPress.code {reports pre : List Report} {r : Report} {before : List UsageEvent}
    {p : UsageEvent} (hen : enabled (sys.usb i) = true)
    (hlast : (sys.usb i).lastReport = fun _ => 0) (hmods : sys.kbd.mods = 0)
    (h : LetterPress t sys i reports pre r before p) :
    p.event.code = upperCase sys.kbd.tables p.usage ↔
      (capsOdd pre before || shiftDown r && !shiftLost (pre ++ [r])) = true := by
  obtain ⟨after, hp⟩ := h.presses
  have hcode := (mem_presses (hp ▸ List.mem_append_right _ (List.mem_cons_self ..))).2
  rw [(bootReports_keeps hen pre).2] at hcode
  rw [hcode, letter_codes h.letter, press_shifted hen hlast hmods hp]

end Run

/- Exactly one of Shift and Caps Lock gives the upper-case letter. -/
def LettersFollowCase (t : TextMode) (sys : KeyboardSystem) (i : Fin maxUsbKeyboards)
    (reports : List Report) : Prop :=
  ∀ pre r before p, LetterPress t sys i reports pre r before p →
    (p.event.code = upperCase sys.kbd.tables p.usage ↔
      (shiftDown r = true ∧ capsOdd pre before = false) ∨
        (shiftDown r = false ∧ capsOdd pre before = true))

/-- `kbd_subsystem_init`, one USB keyboard and any reports: the driver dispatches the
events of each report, and the letters among them have the case Shift and Caps Lock
ask for exactly when every letter pressed with a Shift key down is pressed while Caps
Lock is off, and not after the right Shift key was released over the left one. -/
theorem lettersFollowCase_iff (t : TextMode) (sys : KeyboardSystem) (i : Fin maxUsbKeyboards)
    (hen : enabled (sys.usb i) = true) (hlast : (sys.usb i).lastReport = fun _ => 0)
    (reports : List Report) :
    let start := {sys with kbd := kbdSubsystemInit sys.kbd}
    RunReported t start i reports ∧
      (LettersFollowCase t start i reports ↔
        ∀ pre r before p, LetterPress t start i reports pre r before p → shiftDown r = true →
          capsOdd pre before = false ∧ shiftLost (pre ++ [r]) = false) := by
  intro start
  have hstart : enabled (start.usb i) = true := hen
  refine ⟨runReported hstart reports, ?_⟩
  unfold LettersFollowCase
  refine forall₄_congr fun pre r before p => forall_congr' fun hpress => ?_
  rw [hpress.code hstart hlast rfl]
  generalize capsOdd pre before = caps, shiftDown r = shift, shiftLost (pre ++ [r]) = lost
  revert caps shift lost
  decide

/- A keyboard that has just been plugged in. -/
def pluggedIn : KeyboardSystem := {oneKeyboard with kbd := kbdSubsystemInit oneKeyboard.kbd}

/- Caps Lock, then a letter key. -/
theorem lettersFollowCase_iff_capsLock :
    RunReported vgaText pluggedIn 0 [keyReport 0 0x39, keyReport 0 0x04] ∧
      LettersFollowCase vgaText pluggedIn 0 [keyReport 0 0x39, keyReport 0 0x04] := by
  obtain ⟨hreported, hcase⟩ := lettersFollowCase_iff vgaText oneKeyboard 0 (by decide) rfl
    [keyReport 0 0x39, keyReport 0 0x04]
  refine ⟨hreported, hcase.mpr ?_⟩
  intro pre r before p hpress hshift
  obtain ⟨post, hreports⟩ := hpress.reports
  have hmem : r ∈ [keyReport 0 0x39, keyReport 0 0x04] := hreports ▸ List.mem_append_right _ (by simp)
  simp only [List.mem_cons, List.not_mem_nil, or_false] at hmem
  obtain rfl | rfl := hmem
  · exact absurd hshift (by decide)
  · exact absurd hshift (by decide)

/- Caps Lock, then a letter key with Shift: it is typed in upper case. -/
theorem shift_keeps_capsLock :
    ¬ LettersFollowCase vgaText pluggedIn 0 [keyReport 0 0x39, keyReport 0x02 0x04] := by
  intro h
  have hpress : LetterPress vgaText pluggedIn 0 [keyReport 0 0x39, keyReport 0x02 0x04]
      [keyReport 0 0x39] (keyReport 0x02 0x04) []
      ⟨0x04, kmCaps ||| kmShift, ⟨.press, 81, kmShift, .usb, 1⟩⟩ :=
    ⟨⟨[], rfl⟩, ⟨[], by decide +kernel⟩, by decide +kernel⟩
  have hcase := (h _ _ _ _ hpress).mp (by decide +kernel)
  exact absurd hcase (by decide +kernel)

end CasseOS.Keyboard
