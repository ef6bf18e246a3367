import CasseOS.Keyboard.UsbHidMapper

/-! # The two decoders of boot reports

What `keyboard_usb_on_boot_report` and `usbkbd_on_boot_report` dispatch for the same
two reports. For the keys that both tables know it is always the same; for the
modifier keys it is if Ctrl and Shift change alike and every left key changes alone. -/

namespace CasseOS.Keyboard
open Screen

/- An event but for its modifier word, which the dispatcher replaces. -/
def KeyEvent.what (e : KeyEvent) : KeyEvent := {e with mods := 0}

theorem dispatch_what (t : TextMode) (k : Kbd) (s : Console) (e : KeyEvent) :
    kbdDispatchEvent t k s e.what = kbdDispatchEvent t k s e := rfl

/- The usages that both tables map. -/
def BothMap (u : UInt8) : Prop := hidUsageToKc u ≠ kcNone ∧ hidUsageToExtKc u ≠ kcNone

instance (u : UInt8) : Decidable (BothMap u) := inferInstanceAs (Decidable (_ ∧ _))

def eventsOnBoth (l : List UsageEvent) : List KeyEvent :=
  (l.filter fun e => BothMap e.usage).map fun e => e.event.what

/- The same events of modifier keys, and of the usages that both tables map. -/
structure SameEvents (a b : ReportEvents) : Prop where
  modifiers : a.modifiers.map KeyEvent.what = b.modifiers.map KeyEvent.what
  releases : eventsOnBoth a.releases = eventsOnBoth b.releases
  presses : eventsOnBoth a.presses = eventsOnBoth b.presses

/-! ### Usages -/

theorem eventsOnBoth_append (l l' : List UsageEvent) :
    eventsOnBoth (l ++ l') = eventsOnBoth l ++ eventsOnBoth l' := by
  rw [eventsOnBoth, List.filter_append, List.map_append]
  rfl

/- Two loops agree if their bodies do, whatever the state. -/
theorem eventsOnBoth_loopEvents {event event' : Kbd → UInt8 → Option UsageEvent}
    (hbody : ∀ k k' u, eventsOnBoth (event k u).toList = eventsOnBoth (event' k' u).toList)
    (us : List UInt8) (k k' : Kbd) :
    eventsOnBoth (loopEvents event k us) = eventsOnBoth (loopEvents event' k' us) := by
  induction us generalizing k k' with
  | nil => rfl
  | cons u us ih =>
    rw [loopEvents, loopEvents, eventsOnBoth_append, eventsOnBoth_append, hbody k k' u]
    exact congrArg _ (ih _ _)

theorem eventsOnBoth_if (u : UInt8) (modsState mods : Mods) (type : KeyEventType) (code : Keycode)
    (devId : UInt8) (changed : Prop) [Decidable changed] :
    eventsOnBoth (if changed ∧ code ≠ kcNone then
      some (UsageEvent.mk u modsState ⟨type, code, mods, .usb, devId⟩) else none).toList =
    if BothMap u ∧ changed ∧ code ≠ kcNone then [⟨type, code, 0, .usb, devId⟩] else [] := by
  by_cases hevent : changed ∧ code ≠ kcNone
  · by_cases hboth : BothMap u
    · rw [if_pos hevent, if_pos ⟨hboth, hevent⟩]
      simp [eventsOnBoth, hboth, KeyEvent.what]
    · rw [if_pos hevent, if_neg fun h => hboth h.1]
      simp [eventsOnBoth, hboth]
  · rw [if_neg hevent, if_neg fun h => hevent h.2]
    rfl

/- The tables say the same where both say something; the space bar has a character
as well, which is its keycode. -/
theorem usageCode_of_bothMap {u : UInt8} (h : BothMap u) (l : Layout) (shift : Bool) :
    usageCode l u shift = hidUsageToKc u := by
  have htable : ∀ l ∈ [Layout.qwerty, .azerty], ∀ shift, ∀ n < 256, BothMap (UInt8.ofNat n) →
      usageCode l (UInt8.ofNat n) shift = hidUsageToKc (UInt8.ofNat n) := by
    decide +kernel
  have hu := htable l (by cases l <;> decide) shift u.toNat u.toNat_lt
  rw [UInt8.ofNat_toNat] at hu
  exact hu h

theorem releaseEvent_onBoth (mods : Mods) (devId : UInt8) (report : Report) (k k' : Kbd)
    (u : UInt8) : eventsOnBoth (releaseEvent mods devId report k u).toList =
      eventsOnBoth (releasedKeyEvent devId report k' u).toList := by
  rw [releaseEvent, releasedKeyEvent, eventsOnBoth_if, eventsOnBoth_if, releaseCode_eq]
  by_cases hboth : BothMap u
  · rw [usageCode_of_bothMap hboth]
  · rw [if_neg fun h => hboth h.1, if_neg fun h => hboth h.1]

theorem pressEvent_onBoth (mods : Mods) (devId : UInt8) (prev : Report) (k k' : Kbd) (u : UInt8) :
    eventsOnBoth (pressEvent mods devId prev k u).toList =
      eventsOnBoth (pressedKeyEvent devId prev k' u).toList := by
  rw [pressEvent, pressedKeyEvent, eventsOnBoth_if, eventsOnBoth_if, pressCode_eq]
  by_cases hboth : BothMap u
  · rw [usageCode_of_bothMap hboth]
  · rw [if_neg fun h => hboth h.1, if_neg fun h => hboth h.1]

section Reports
variable (k k' : Kbd) (devId : UInt8) (prev report : Report)

theorem releases_onBoth : eventsOnBoth (reportEvents k devId prev report).releases =
    eventsOnBoth (mapperEvents k' devId prev report).releases :=
  eventsOnBoth_loopEvents (releaseEvent_onBoth _ devId report) _ _ _

theorem presses_onBoth : eventsOnBoth (reportEvents k devId prev report).presses =
    eventsOnBoth (mapperEvents k' devId prev report).presses :=
  eventsOnBoth_loopEvents (pressEvent_onBoth _ devId prev) _ _ _

end Reports

/-! ### Modifier keys -/

theorem typesOf_map_what (code : Keycode) (l : List KeyEvent) :
    typesOf code (l.map KeyEvent.what) = typesOf code l := by
  rw [typesOf, List.filter_map, List.map_map]
  rfl

section Rows
variable {prev now prev' now' : Mods} {devId : UInt8} {ms ms' : List (Mods × Keycode)}

/- The events of the rows follow from what happens to each key. -/
theorem rows_what (hnodup : (ms.map Prod.snd).Nodup) :
    (ms.filterMap (modifierEvent prev now devId)).map KeyEvent.what =
      (ms.map Prod.snd).flatMap fun code =>
        (typesOf code (ms.filterMap (modifierEvent prev now devId))).map
          fun type => ⟨type, code, 0, .usb, devId⟩ := by
  rw [List.filterMap_eq_flatMap_toList, List.map_flatMap, List.flatMap_map]
  apply List.flatMap_congr
  intro m hm
  rw [← List.filterMap_eq_flatMap_toList, typesOf_rows prev now devId hnodup hm,
    ← typesOf_modifierEvent prev now devId m, modifierEvent]
  split
  · simp [typesOf, KeyEvent.what]
  · rfl

/- Rows for the same keys in the same order. -/
theorem rows_what_iff (hnodup : (ms.map Prod.snd).Nodup)
    (hcodes : ms'.map Prod.snd = ms.map Prod.snd) :
    (ms.filterMap (modifierEvent prev now devId)).map KeyEvent.what =
        (ms'.filterMap (modifierEvent prev' now' devId)).map KeyEvent.what ↔
      ∀ code ∈ ms.map Prod.snd, typesOf code (ms.filterMap (modifierEvent prev now devId)) =
        typesOf code (ms'.filterMap (modifierEvent prev' now' devId)) := by
  constructor
  · intro h code _
    rw [← typesOf_map_what, h, typesOf_map_what]
  · intro h
    rw [rows_what hnodup, rows_what (hcodes ▸ hnodup), hcodes]
    apply List.flatMap_congr
    intro code hcode
    rw [h code hcode]

end Rows

/- The masks of the other decoder and the keycodes at their places. -/
def mapperMap : List (Mods × Keycode) :=
  (List.range 8).map fun bit => (1#16 <<< bit, modifierCodes.getD bit kcNone)

theorem modifierBitEvent_eq (prev now : Mods) (devId : UInt8) (bit : ℕ) :
    (modifierBitEvent devId now (now ^^^ prev) bit) = (modifierEvent prev now devId
      (1#16 <<< bit, modifierCodes.getD bit kcNone)).map KeyEvent.what := by
  rw [modifierBitEvent, modifierEvent, BitVec.xor_comm]
  split
  · simp [KeyEvent.what]
  · rfl

theorem mapper_modifiers (k : Kbd) (devId : UInt8) (prev report : Report) :
    (mapperEvents k devId prev report).modifiers.map KeyEvent.what =
      (mapperMap.filterMap (modifierEvent (UsbHidMapper.modsFromHid (prev 0))
        (UsbHidMapper.modsFromHid (report 0)) devId)).map KeyEvent.what := by
  rw [mapperEvents, mapperMap, List.filterMap_map]
  dsimp only
  rw [funext (modifierBitEvent_eq _ _ devId), ← List.map_filterMap, List.map_map]
  rfl

/- The pair whose bits are in the place of those of this pair. -/
def ModPair.swapped : ModPair → ModPair
  | shift => ctrl
  | ctrl => shift
  | alt => alt
  | gui => gui

theorem mapperModsFromHid_bits (m : UInt8) (p : ModPair) :
    isSet (UsbHidMapper.modsFromHid m) p.aggMask = leftDown m p ∧
      isSet (UsbHidMapper.modsFromHid m) p.rightMask = rightDown m p := by
  unfold UsbHidMapper.modsFromHid leftDown rightDown
  cases p
  all_goals
    simp only [ModPair.hidIndex, UInt8.reduceAdd]
    generalize hidBit m 0 = b0, hidBit m 1 = b1, hidBit m 2 = b2, hidBit m 3 = b3
    generalize hidBit m 4 = b4, hidBit m 5 = b5, hidBit m 6 = b6, hidBit m 7 = b7
    revert b0 b1 b2 b3 b4 b5 b6 b7
    decide

/- The keys of the rows are those of the pairs. -/
theorem forall_codes_iff (P : Keycode → Prop) :
    (∀ code ∈ modifierMap.map Prod.snd, P code) ↔ ∀ p : ModPair, P p.left ∧ P p.right := by
  have hcodes : modifierMap.map Prod.snd = modifierKeys.map Prod.snd := rfl
  rw [hcodes, List.forall_mem_map]
  exact forall_modifierKeys fun m => P m.2

section Types
variable (prev now devId : UInt8) (p : ModPair)

/- In the other decoder a key has the events of the pair its place belongs to. -/
theorem typesOf_mapper_left :
    typesOf p.left (mapperMap.filterMap (modifierEvent (UsbHidMapper.modsFromHid prev)
      (UsbHidMapper.modsFromHid now) devId)) =
      changeTypes (leftDown prev p.swapped) (leftDown now p.swapped) := by
  have hm : (p.swapped.aggMask, p.left) ∈ mapperMap := by cases p <;> decide
  exact typesOf_rows_changes (by decide) hm (fun a b => isSet_xor_agg a b p.swapped)
    (fun byte => (mapperModsFromHid_bits byte p.swapped).1) prev now devId

theorem typesOf_mapper_right :
    typesOf p.right (mapperMap.filterMap (modifierEvent (UsbHidMapper.modsFromHid prev)
      (UsbHidMapper.modsFromHid now) devId)) =
      changeTypes (rightDown prev p.swapped) (rightDown now p.swapped) := by
  have hm : (p.swapped.rightMask, p.right) ∈ mapperMap := by cases p <;> decide
  exact typesOf_rows_changes (by decide) hm (fun a b => isSet_xor_right a b p.swapped)
    (fun byte => (mapperModsFromHid_bits byte p.swapped).2) prev now devId

end Types

/-! ### When they agree -/

/- Neither bit changes, or both do in the same way. -/
def ChangeAlike (a a' b b' : Bool) : Prop := (a = a' ∧ b = b') ∨ (a = b ∧ a' = b')

instance (a a' b b' : Bool) : Decidable (ChangeAlike a a' b b') :=
  inferInstanceAs (Decidable ((a = a' ∧ b = b') ∨ (a = b ∧ a' = b')))

/- Left Ctrl and left Shift change alike, and so do the right ones; and the left key of
each pair changes alone. -/
structure SameModifiers (prev now : UInt8) : Prop where
  left : ChangeAlike (leftDown prev .ctrl) (leftDown now .ctrl) (leftDown prev .shift)
    (leftDown now .shift)
  right : ChangeAlike (rightDown prev .ctrl) (rightDown now .ctrl) (rightDown prev .shift)
    (rightDown now .shift)
  alone : ∀ p, LeftAlone prev now p

/- Two pairs whose places are swapped. -/
theorem changeTypes_swapped (l r l' r' m s m' s' : Bool) :
    (changeTypes (l || r) (l' || r') = changeTypes m m' ∧ changeTypes r r' = changeTypes s s') ∧
        (changeTypes (m || s) (m' || s') = changeTypes l l' ∧ changeTypes s s' = changeTypes r r') ↔
      ChangeAlike l l' m m' ∧ ChangeAlike r r' s s' ∧
        changeTypes (l || r) (l' || r') = changeTypes l l' ∧
          changeTypes (m || s) (m' || s') = changeTypes m m' := by
  revert l r l' r' m s m' s'
  decide

theorem sameModifiers_iff (prev now : UInt8) :
    (∀ p : ModPair, changeTypes (leftDown prev p || rightDown prev p)
        (leftDown now p || rightDown now p) =
          changeTypes (leftDown prev p.swapped) (leftDown now p.swapped) ∧
      changeTypes (rightDown prev p) (rightDown now p) =
        changeTypes (rightDown prev p.swapped) (rightDown now p.swapped)) ↔
      SameModifiers prev now := by
  have halone : ∀ p, changeTypes (leftDown prev p || rightDown prev p)
      (leftDown now p || rightDown now p) = changeTypes (leftDown prev p) (leftDown now p) ↔
        LeftAlone prev now p := fun p => changeTypes_agg _ _ _ _
  have hswapped := changeTypes_swapped (leftDown prev .ctrl) (rightDown prev .ctrl)
    (leftDown now .ctrl) (rightDown now .ctrl) (leftDown prev .shift) (rightDown prev .shift)
    (leftDown now .shift) (rightDown now .shift)
  rw [halone, halone] at hswapped
  constructor
  · intro h
    obtain ⟨hleft, hright, hctrl, hshift⟩ := hswapped.mp ⟨h .ctrl, h .shift⟩
    refine ⟨hleft, hright, fun p => ?_⟩
    cases p with
    | ctrl => exact hctrl
    | shift => exact hshift
    | alt => exact (halone .alt).mp (h .alt).1
    | gui => exact (halone .gui).mp (h .gui).1
  · intro h p
    obtain ⟨hctrl, hshift⟩ := hswapped.mpr ⟨h.left, h.right, h.alone .ctrl, h.alone .shift⟩
    cases p with
    | ctrl => exact hctrl
    | shift => exact hshift
    | alt => exact ⟨(halone .alt).mpr (h.alone .alt), rfl⟩
    | gui => exact ⟨(halone .gui).mpr (h.alone .gui), rfl⟩

theorem modifiers_agree_iff (k k' : Kbd) (devId : UInt8) (prev report : Report) :
    (reportEvents k devId prev report).modifiers.map KeyEvent.what =
        (mapperEvents k' devId prev report).modifiers.map KeyEvent.what ↔
      SameModifiers (prev 0) (report 0) := by
  rw [report_modifiers, mapper_modifiers, modifierEvents, rows_what_iff (by decide) (by decide),
    forall_codes_iff, ← sameModifiers_iff]
  apply forall_congr'
  intro p
  rw [← modifierEvents, typesOf_left, typesOf_right, typesOf_mapper_left, typesOf_mapper_right]

/-- The same two reports at both decoders, with any modifier bytes and keys: they
dispatch the same events for the usages that both tables map, and the same events of
modifier keys if and only if Ctrl and Shift change alike and the left keys alone. -/
theorem boot_decoders_agree_iff (t : TextMode) (sys : KeyboardSystem) (i : Fin maxUsbKeyboards)
    (report : Report) (ks : Kbd × Console) (hen : enabled (sys.usb i) = true) :
    Reported t sys i report (keyboardUsbOnBootReport t sys i.val report) ∧
      usbkbdOnBootReport t (sys.usb i).devId report (sys.usb i).lastReport ks = dispatchEvents t ks
        (mapperEvents ks.1 (sys.usb i).devId (sys.usb i).lastReport report).all ∧
      eventsOnBoth (eventsAt sys i report).releases = eventsOnBoth
        (mapperEvents ks.1 (sys.usb i).devId (sys.usb i).lastReport report).releases ∧
      eventsOnBoth (eventsAt sys i report).presses = eventsOnBoth
        (mapperEvents ks.1 (sys.usb i).devId (sys.usb i).lastReport report).presses ∧
      (SameEvents (eventsAt sys i report)
          (mapperEvents ks.1 (sys.usb i).devId (sys.usb i).lastReport report) ↔
        SameModifiers ((sys.usb i).lastReport 0) (report 0)) := by
  have hmodifiers :=
    modifiers_agree_iff sys.kbd ks.1 (sys.usb i).devId (sys.usb i).lastReport report
  have hreleases :=
    releases_onBoth sys.kbd ks.1 (sys.usb i).devId (sys.usb i).lastReport report
  have hpresses := presses_onBoth sys.kbd ks.1 (sys.usb i).devId (sys.usb i).lastReport report
  refine ⟨onBootReport_reported t sys i report hen, usbkbdOnBootReport_eq t _ _ report ks,
    hreleases, hpresses, ?_⟩
  constructor
  · intro h
    exact hmodifiers.mp h.modifiers
  · intro h
    exact ⟨hmodifiers.mpr h, hreleases, hpresses⟩

/- Enter goes down while nothing happens to the modifier keys. -/
theorem boot_decoders_agree_enter : SameEvents
    (eventsAt oneKeyboard 0 (fun j => if j = 2 then 0x28 else 0))
    (mapperEvents oneKeyboard.kbd (oneKeyboard.usb 0).devId (oneKeyboard.usb 0).lastReport
      (fun j => if j = 2 then 0x28 else 0)) :=
  (boot_decoders_agree_iff vgaText oneKeyboard 0 (fun j => if j = 2 then 0x28 else 0)
    (oneKeyboard.kbd, oneKeyboard.console) (by decide)).2.2.2.2.mpr ⟨by decide, by decide, by
      intro p
      unfold LeftAlone
      cases p <;> decide⟩

/- Left Ctrl goes down alone: the other decoder takes it for left Shift. -/
theorem left_ctrl_mapped_to_shift :
    ¬ SameEvents (eventsAt oneKeyboard 0 (modifierReport 0x01))
        (mapperEvents oneKeyboard.kbd (oneKeyboard.usb 0).devId (oneKeyboard.usb 0).lastReport
          (modifierReport 0x01)) ∧
      typesOf kcLctrl (eventsAt oneKeyboard 0 (modifierReport 0x01)).all = [.press] ∧
      typesOf kcLshift (mapperEvents oneKeyboard.kbd (oneKeyboard.usb 0).devId
        (oneKeyboard.usb 0).lastReport (modifierReport 0x01)).all = [.press] := by
  refine ⟨fun h => ?_, by decide, by decide⟩
  have hmodifiers := h.modifiers
  revert hmodifiers
  decide

end CasseOS.Keyboard
