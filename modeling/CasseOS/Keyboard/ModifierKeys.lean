import CasseOS.Keyboard.UsbEvents

/-! # The modifier keys of a boot report

Byte 0 of a boot report has a bit for each modifier key. `mods_from_hid` merges
the two keys of a pair into the aggregate bit, and the events of the left key
are those of the aggregate: they are its own as long as the right key of the
pair leaves the aggregate alone. -/

namespace CasseOS.Keyboard
open Screen

/- The bits of byte 0 and their keys. -/
def modifierKeys : List (UInt8 × Keycode) := [
  (0, kcLctrl), (1, kcLshift), (2, kcLalt), (3, kcLgui),
  (4, kcRctrl), (5, kcRshift), (6, kcRalt), (7, kcRgui)]

/- What happened to a key, oldest first. -/
def typesOf (code : Keycode) (events : List KeyEvent) : List KeyEventType :=
  (events.filter fun e => e.code = code).map KeyEvent.type

/- What happens to a key whose bit goes from `prev` to `now`. -/
def changeTypes (prev now : Bool) : List KeyEventType :=
  if prev = now then [] else [if now then .press else .release]

/- Each modifier key has an event if and only if its own bit changes, once and
of the right type. -/
def NamesModifiers (prev now : UInt8) (events : List KeyEvent) : Prop :=
  ∀ m ∈ modifierKeys, typesOf m.2 events = changeTypes (hidBit prev m.1) (hidBit now m.1)

/-! ### Events of one key -/

section Types
variable {code : Keycode}

theorem typesOf_append (l l' : List KeyEvent) :
    typesOf code (l ++ l') = typesOf code l ++ typesOf code l' := by
  rw [typesOf, List.filter_append, List.map_append]
  rfl

theorem typesOf_nil {l : List KeyEvent} (h : ∀ e ∈ l, e.code ≠ code) : typesOf code l = [] := by
  have hnone : l.filter (fun e => decide (e.code = code)) = [] :=
    List.filter_eq_nil_iff.mpr fun e he => by simpa using h e he
  rw [typesOf, hnone]
  rfl

theorem typesOf_loopEvents {event : Kbd → UInt8 → Option UsageEvent}
    (hevent : ∀ k u e, e ∈ event k u → Plain e.event.code) (p : ModPair)
    (hcode : code = p.left ∨ code = p.right) (k : Kbd) (us : List UInt8) :
    typesOf code ((loopEvents event k us).map UsageEvent.event) = [] := by
  apply typesOf_nil
  intro e he
  obtain ⟨ue, hue, rfl⟩ := List.mem_map.mp he
  obtain ⟨k', u, hmem⟩ := mem_loopEvents hue
  have hplain := hevent k' u ue hmem p
  obtain rfl | rfl := hcode
  · exact hplain.1
  · exact hplain.2

end Types

/-! ### The table of the driver -/

section Deltas
variable (prev now : Mods) (devId : UInt8)

theorem modifierEvent_code {m : Mods × Keycode} {e : KeyEvent}
    (h : e ∈ modifierEvent prev now devId m) : e.code = m.2 := by
  unfold modifierEvent at h
  split at h
  · cases h
    rfl
  · cases h

theorem typesOf_modifierEvent (m : Mods × Keycode) :
    typesOf m.2 (modifierEvent prev now devId m).toList =
      if isSet (prev ^^^ now) m.1 then [if isSet now m.1 then .press else .release] else [] := by
  unfold modifierEvent isSet
  by_cases hc : (prev ^^^ now) &&& m.1 ≠ 0
  · rw [if_pos hc, if_pos (decide_eq_true hc), typesOf, Option.toList_some,
      List.filter_singleton, decide_eq_true rfl]
    rfl
  · rw [if_neg hc, if_neg (by simpa using hc)]
    rfl

/- The events of a key are those of its own row. -/
theorem typesOf_rows {ms : List (Mods × Keycode)} (hnodup : (ms.map Prod.snd).Nodup)
    {m : Mods × Keycode} (hm : m ∈ ms) :
    typesOf m.2 (ms.filterMap (modifierEvent prev now devId)) =
      if isSet (prev ^^^ now) m.1 then [if isSet now m.1 then .press else .release] else [] := by
  induction ms with
  | nil => exact absurd hm List.not_mem_nil
  | cons m' ms ih =>
    have hsplit : (m' :: ms).filterMap (modifierEvent prev now devId) =
        (modifierEvent prev now devId m').toList ++ ms.filterMap (modifierEvent prev now devId) := by
      rw [List.filterMap_cons]
      cases modifierEvent prev now devId m' <;> rfl
    rw [List.map_cons, List.nodup_cons] at hnodup
    rw [hsplit, typesOf_append]
    obtain rfl | hm := List.mem_cons.mp hm
    · have hothers : typesOf m.2 (ms.filterMap (modifierEvent prev now devId)) = [] := by
        apply typesOf_nil
        intro e he heq
        obtain ⟨m', hm', hmem⟩ := List.mem_filterMap.mp he
        rw [modifierEvent_code prev now devId hmem] at heq
        exact hnodup.1 (List.mem_map.mpr ⟨m', hm', heq⟩)
      rw [hothers, List.append_nil]
      exact typesOf_modifierEvent prev now devId m
    · have hfirst : typesOf m.2 (modifierEvent prev now devId m').toList = [] := by
        apply typesOf_nil
        intro e he heq
        rw [modifierEvent_code prev now devId (Option.mem_toList.mp he)] at heq
        exact hnodup.1 (List.mem_map.mpr ⟨m, hm, heq.symm⟩)
      rw [hfirst, List.nil_append]
      exact ih hnodup.2 hm

end Deltas

/- A key has an event where its bit changes, if its mask says in the modifier words
whether it is down. -/
theorem typesOf_rows_changes {word : UInt8 → Mods} {down : UInt8 → Bool} {ms : List (Mods × Keycode)}
    (hnodup : (ms.map Prod.snd).Nodup) {m : Mods × Keycode} (hm : m ∈ ms)
    (hxor : ∀ a b, isSet (a ^^^ b) m.1 = (isSet a m.1 ^^ isSet b m.1))
    (hword : ∀ byte, isSet (word byte) m.1 = down byte) (prev now devId : UInt8) :
    typesOf m.2 (ms.filterMap (modifierEvent (word prev) (word now) devId)) =
      changeTypes (down prev) (down now) := by
  rw [typesOf_rows _ _ devId hnodup hm, hxor, hword, hword, changeTypes]
  cases down prev <;> cases down now <;> rfl

/-! ### Both keys of a pair -/

section Pairs
variable (prev now devId : UInt8) (p : ModPair)

/- The left key has the events of the aggregate. -/
theorem typesOf_left :
    typesOf p.left (modifierEvents (modsFromHid prev) (modsFromHid now) devId) =
      changeTypes (leftDown prev p || rightDown prev p) (leftDown now p || rightDown now p) := by
  have hm : (p.aggMask, p.left) ∈ modifierMap := by cases p <;> decide
  exact typesOf_rows_changes (by decide) hm (fun a b => isSet_xor_agg a b p)
    (fun byte => (modsFromHid_bits byte p).1) prev now devId

theorem typesOf_right :
    typesOf p.right (modifierEvents (modsFromHid prev) (modsFromHid now) devId) =
      changeTypes (rightDown prev p) (rightDown now p) := by
  have hm : (p.rightMask, p.right) ∈ modifierMap := by cases p <;> decide
  exact typesOf_rows_changes (by decide) hm (fun a b => isSet_xor_right a b p)
    (fun byte => (modsFromHid_bits byte p).2) prev now devId

end Pairs

section Reports
variable (k : Kbd) (devId : UInt8) (prev report : Report)

/- The loop is only run if the two words differ; if they do not it has no events. -/
theorem report_modifiers : (reportEvents k devId prev report).modifiers =
    modifierEvents (modsFromHid (prev 0)) (modsFromHid (report 0)) devId := by
  rw [reportEvents]
  dsimp only
  by_cases hne : modsFromHid (report 0) ≠ modsFromHid (prev 0)
  · rw [if_pos hne]
  · have hnone : ∀ m ∈ modifierMap,
        modifierEvent (modsFromHid (prev 0)) (modsFromHid (prev 0)) devId m = none := by
      intro m _
      simp [modifierEvent]
    rw [if_neg hne, not_not.mp hne]
    exact (List.filterMap_eq_nil_iff.mpr hnone).symm

/- A modifier key has its events in the first loop. -/
theorem typesOf_report {code : Keycode} {p : ModPair} (hcode : code = p.left ∨ code = p.right) :
    typesOf code (reportEvents k devId prev report).all =
      typesOf code (modifierEvents (modsFromHid (prev 0)) (modsFromHid (report 0)) devId) := by
  have hreleases : typesOf code ((reportEvents k devId prev report).releases.map
      UsageEvent.event) = [] :=
    typesOf_loopEvents (fun _ _ _ h => releaseEvent_plain h) p hcode _ _
  have hpresses : typesOf code ((reportEvents k devId prev report).presses.map
      UsageEvent.event) = [] :=
    typesOf_loopEvents (fun _ _ _ h => pressEvent_plain h) p hcode _ _
  rw [ReportEvents.all, typesOf_append, typesOf_append, hreleases, hpresses, List.append_nil,
    List.append_nil, report_modifiers]

end Reports

/- The keys of a pair are four places apart. -/
theorem forall_modifierKeys (P : UInt8 × Keycode → Prop) :
    (∀ m ∈ modifierKeys, P m) ↔
      ∀ p : ModPair, P (p.hidIndex, p.left) ∧ P (p.hidIndex + 4, p.right) := by
  constructor
  · intro h p
    cases p <;> exact ⟨h _ (by decide), h _ (by decide)⟩
  · intro h m hm
    simp only [modifierKeys, List.mem_cons, List.not_mem_nil, or_false] at hm
    obtain rfl | rfl | rfl | rfl | rfl | rfl | rfl | rfl := hm
    · exact (h .ctrl).1
    · exact (h .shift).1
    · exact (h .alt).1
    · exact (h .gui).1
    · exact (h .ctrl).2
    · exact (h .shift).2
    · exact (h .alt).2
    · exact (h .gui).2

theorem namesModifiers_pairs (prev now : UInt8) (events : List KeyEvent) :
    NamesModifiers prev now events ↔ ∀ p : ModPair,
      typesOf p.left events = changeTypes (leftDown prev p) (leftDown now p) ∧
        typesOf p.right events = changeTypes (rightDown prev p) (rightDown now p) :=
  forall_modifierKeys _

/- While the left key stays up the right one does not change; when the left key
goes down the right one was up, and when it goes up the right one is up. -/
def LeftAlone (prev now : UInt8) (p : ModPair) : Prop :=
  (leftDown prev p = false → leftDown now p = false → rightDown now p = rightDown prev p) ∧
    (leftDown prev p = false → leftDown now p = true → rightDown prev p = false) ∧
    (leftDown prev p = true → leftDown now p = false → rightDown now p = false)

theorem changeTypes_agg (l r l' r' : Bool) :
    changeTypes (l || r) (l' || r') = changeTypes l l' ↔
      (l = false → l' = false → r' = r) ∧ (l = false → l' = true → r = false) ∧
        (l = true → l' = false → r' = false) := by
  revert l r l' r'
  decide

/-- A boot report that a registered keyboard sends after any other, with any
modifier word and any keys: the report is kept as the last one, and what is
dispatched names the modifier keys whose bits changed, and no others, if and
only if the left key of each pair changes alone. -/
theorem modifier_keys_named (t : TextMode) (sys : KeyboardSystem) (i : Fin maxUsbKeyboards)
    (report : Report) (hen : enabled (sys.usb i) = true) :
    Reported t sys i report (keyboardUsbOnBootReport t sys i.val report) ∧
      (NamesModifiers ((sys.usb i).lastReport 0) (report 0) (eventsAt sys i report).all ↔
        ∀ p, LeftAlone ((sys.usb i).lastReport 0) (report 0) p) := by
  refine ⟨onBootReport_reported t sys i report hen, ?_⟩
  rw [namesModifiers_pairs]
  apply forall_congr'
  intro p
  rw [eventsAt, typesOf_report _ _ _ _ (Or.inl rfl), typesOf_report _ _ _ _ (Or.inr rfl), typesOf_left,
    typesOf_right, and_iff_left rfl]
  exact changeTypes_agg _ _ _ _

/- The left Shift key goes down. -/
theorem modifier_keys_named_shift :
    NamesModifiers 0 2 (eventsAt oneKeyboard 0 (modifierReport 2)).all :=
  (modifier_keys_named vgaText oneKeyboard 0 (modifierReport 2) (by decide)).2.mpr (by
    intro p
    unfold LeftAlone
    cases p <;> decide)

/- The right Ctrl key goes down alone, and the left one with it. -/
theorem right_ctrl_presses_left :
    ¬ ∀ (sys : KeyboardSystem) (i : Fin maxUsbKeyboards) (report : Report),
      enabled (sys.usb i) = true →
      NamesModifiers ((sys.usb i).lastReport 0) (report 0) (eventsAt sys i report).all := by
  intro h
  have hleft := h oneKeyboard 0 (modifierReport 0x10) (by decide) (0, kcLctrl) (by decide)
  exact absurd hleft (by decide)

end CasseOS.Keyboard
