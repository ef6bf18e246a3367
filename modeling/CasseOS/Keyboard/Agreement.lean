import CasseOS.Keyboard.Typing

/-! # PS/2 and USB keyboards agree

What the two keyboards dispatch for the same typing. They keep their modifier
words differently, so they only agree as long as the right-hand keys and the
locks stay out of the way. -/

namespace CasseOS.Keyboard
open Screen

/-! ### The USB side of a transition -/

section Loops
variable {event : Kbd → UInt8 → Option UsageEvent} {us : List UInt8}

theorem loopEvents_nil (h : ∀ u ∈ us, ∀ k, event k u = none) (k : Kbd) : loopEvents event k us = [] := by
  induction us generalizing k with
  | nil => rfl
  | cons u us ih =>
    have hnone := h u (List.mem_cons_self ..) k
    rw [loopEvents, hnone]
    exact ih (fun v hv => h v (List.mem_cons_of_mem u hv)) _

/- One usage has an event, the others have none. -/
theorem loopEvents_one {pre post : List UInt8} {u : UInt8}
    (h : ∀ v ∈ pre ++ post, ∀ k, event k v = none) (k : Kbd) :
    loopEvents event k (pre ++ u :: post) = (event k u).toList := by
  induction pre with
  | nil =>
    rw [List.nil_append, loopEvents]
    rw [loopEvents_nil (fun v hv => h v (List.mem_append_right _ hv)), List.append_nil]
  | cons v pre ih =>
    rw [List.cons_append, loopEvents, h v (by simp)]
    exact ih fun w hw => h w (List.mem_cons_of_mem v hw)

end Loops

section Reports
variable {k : Kbd} {devId : UInt8} {prev report : Report}

theorem reportEvents_modifiers (h : report.modifiers = prev.modifiers) :
    (reportEvents k devId prev report).modifiers = [] := by
  have hsame : modsFromHid (report 0) = modsFromHid (prev 0) := congrArg modsFromHid h
  unfold reportEvents
  dsimp only
  rw [if_neg (not_not.mpr hsame)]

theorem reportEvents_releases (h : ∀ u ∈ usages prev, u ≠ 0 → u ∈ usages report) :
    (reportEvents k devId prev report).releases = [] := by
  apply loopEvents_nil
  intro u hu k
  rw [releaseEvent, if_neg]
  rintro ⟨⟨hz, hgone⟩, -⟩
  rw [mem_usages.mp (h u hu hz)] at hgone
  exact absurd hgone.symm Bool.false_ne_true

theorem reportEvents_presses (h : ∀ u ∈ usages report, u ≠ 0 → u ∈ usages prev) :
    (reportEvents k devId prev report).presses = [] := by
  apply loopEvents_nil
  intro u hu k
  rw [pressEvent, if_neg]
  rintro ⟨⟨hz, hnew⟩, -⟩
  rw [mem_usages.mp (h u hu hz)] at hnew
  exact absurd hnew.symm Bool.false_ne_true

theorem reportEvents_release_types :
    pressCodes ((reportEvents k devId prev report).releases.map UsageEvent.event) = [] := by
  apply pressCodes_release
  intro e he
  obtain ⟨r, hr, rfl⟩ := List.mem_map.mp he
  obtain ⟨k', u, hmem⟩ := mem_loopEvents hr
  unfold releaseEvent at hmem
  split at hmem
  · cases hmem
    rfl
  · cases hmem

end Reports

/-! ### Slots of a report -/

theorem keySlots_modifiers {i : Fin 8} (h : i ∈ keySlots) : i.val ≠ 0 := by
  revert i
  decide

/- The slot of the new usage, and the slots before and after it. -/
theorem addUsage_split {r r' : Report} {u : UInt8} (h : addUsage r u = some r') :
    r'.modifiers = r.modifiers ∧ ∃ pre post, usages r = pre ++ 0 :: post ∧ usages r' = pre ++ u :: post := by
  obtain ⟨i, hi, rfl⟩ := Option.map_eq_some_iff.mp h
  have hmem := List.mem_of_find?_eq_some hi
  have hzero : r i = 0 := by simpa using List.find?_some hi
  obtain ⟨pre, post, hsplit⟩ := List.append_of_mem hmem
  have hnodup : (pre ++ i :: post).Nodup := by
    rw [← hsplit]
    decide
  have hpre : ∀ j ∈ pre ++ post, Function.update r i u j = r j := by
    intro j hj
    apply Function.update_of_ne
    rintro rfl
    have hperm : (pre ++ j :: post).Perm (j :: (pre ++ post)) := List.perm_middle
    exact (List.nodup_cons.mp (hperm.nodup_iff.mp hnodup)).1 hj
  refine ⟨?_, pre.map r, post.map r, ?_, ?_⟩
  · apply Function.update_of_ne
    intro h0
    exact keySlots_modifiers hmem (congrArg Fin.val h0).symm
  · rw [usages, hsplit, List.map_append, List.map_cons, hzero]
  · rw [usages, hsplit, List.map_append, List.map_cons, Function.update_self,
      List.map_congr_left fun j hj => hpre j (List.mem_append_left _ hj),
      List.map_congr_left fun j hj => hpre j (List.mem_append_right _ hj)]

theorem removeUsage_modifiers (r : Report) (u : UInt8) : (removeUsage r u).modifiers = r.modifiers := by
  unfold Report.modifiers removeUsage
  rw [if_neg fun h => keySlots_modifiers h.1 rfl]

theorem removeUsage_usages {r : Report} {u v : UInt8} (h : v ∈ usages (removeUsage r u)) (hv : v ≠ 0) :
    v ∈ usages r := by
  obtain ⟨i, hi, rfl⟩ := List.mem_map.mp h
  unfold removeUsage at hv ⊢
  split at hv
  · exact absurd rfl hv
  · next hne =>
    rw [if_neg hne]
    exact List.mem_map.mpr ⟨i, hi, rfl⟩

/-! ### The keycodes of a transition -/

theorem all_codes (e : ReportEvents) (h : pressCodes (e.releases.map UsageEvent.event) = []) :
    pressCodes e.all = pressCodes e.modifiers ++ pressCodes (e.presses.map UsageEvent.event) := by
  rw [ReportEvents.all, pressCodes_append, pressCodes_append, h, List.append_nil]

theorem pressEvent_codes {mods : Mods} {devId u : UInt8} {prev : Report} {k : Kbd} (hu : u ≠ 0)
    (hnew : reportContains prev u = false) :
    pressCodes ((pressEvent mods devId prev k u).toList.map UsageEvent.event) =
      codeList (usageCode k.tables u (shifted k.mods)) := by
  rw [← pressCode_eq, codeList, pressEvent]
  by_cases hcode : pressCode k u ≠ kcNone
  · rw [if_pos hcode, if_pos ⟨⟨hu, hnew⟩, hcode⟩]
    exact pressCodes_press _ rfl
  · rw [if_neg hcode, if_neg fun h => hcode h.2]
    rfl

section Codes
variable {k : Kbd} {devId : UInt8} {prev report : Report}

theorem report_codes :
    pressCodes (reportEvents k devId prev report).all =
      pressCodes (reportEvents k devId prev report).modifiers ++
        pressCodes ((reportEvents k devId prev report).presses.map UsageEvent.event) :=
  all_codes _ reportEvents_release_types

theorem reportEvents_presses_eq : (reportEvents k devId prev report).presses =
    loopEvents (pressEvent (modsFromHid report.modifiers) devId prev)
      (withMods (withMods k (reportEvents k devId prev report).modifiers)
        ((reportEvents k devId prev report).releases.map UsageEvent.event)) (usages report) := rfl

/- A key goes down: the events are those of its press. -/
theorem usage_press_codes {u : UInt8} (hadd : addUsage prev u = some report) (hu : u ≠ 0)
    (hnew : reportContains prev u = false) :
    pressCodes (reportEvents k devId prev report).all =
      codeList (usageCode k.tables u (shifted k.mods)) := by
  obtain ⟨hmods, pre, post, hprev, hreport⟩ := addUsage_split hadd
  have hreleases : (reportEvents k devId prev report).releases = [] := by
    apply reportEvents_releases
    intro v hv hz
    rw [hprev, List.mem_append, List.mem_cons] at hv
    rw [hreport, List.mem_append, List.mem_cons]
    obtain hv | hv | hv := hv
    · exact Or.inl hv
    · exact absurd hv hz
    · exact Or.inr (Or.inr hv)
  have hothers : ∀ v ∈ pre ++ post, ∀ k, pressEvent (modsFromHid report.modifiers) devId prev k v = none := by
    intro v hv k
    rw [pressEvent, if_neg]
    rintro ⟨⟨-, hgone⟩, -⟩
    have hmem : v ∈ usages prev := by
      rw [hprev, List.mem_append, List.mem_cons]
      rw [List.mem_append] at hv
      exact hv.imp_right Or.inr
    rw [mem_usages.mp hmem] at hgone
    exact absurd hgone.symm Bool.false_ne_true
  rw [report_codes, reportEvents_presses_eq, reportEvents_modifiers hmods, hreleases, hreport,
    loopEvents_one hothers]
  exact pressEvent_codes hu hnew

/- A key goes up. -/
theorem usage_release_codes (u : UInt8) :
    pressCodes (reportEvents k devId prev (removeUsage prev u)).all = [] := by
  rw [report_codes, reportEvents_modifiers (removeUsage_modifiers prev u),
    reportEvents_presses fun v hv hz => removeUsage_usages hv hz]
  rfl

/- The keycodes of the presses when the modifier byte changes. -/
def deltaCodes (m m' : UInt8) : List Keycode :=
  pressCodes (if modsFromHid m' ≠ modsFromHid m then
    modifierEvents (modsFromHid m) (modsFromHid m') 0 else [])

theorem modifierEvents_codes (prev now : Mods) (devId : UInt8) :
    pressCodes (modifierEvents prev now devId) = pressCodes (modifierEvents prev now 0) := by
  unfold modifierEvents
  induction modifierMap with
  | nil => rfl
  | cons m ms ih =>
    by_cases hc : (prev ^^^ now) &&& m.1 ≠ 0
    · have hevent : ∀ devId, modifierEvent prev now devId m = some _ := fun _ => if_pos hc
      rw [List.filterMap_cons_some (hevent devId), List.filterMap_cons_some (hevent 0),
        pressCodes_cons, pressCodes_cons, ih]
    · have hevent : ∀ devId, modifierEvent prev now devId m = none := fun _ => if_neg hc
      rw [List.filterMap_cons_none (hevent devId), List.filterMap_cons_none (hevent 0), ih]

theorem modifier_codes (m : UInt8) :
    pressCodes (reportEvents k devId prev (setModifiers prev m)).all = deltaCodes prev.modifiers m := by
  have hpresses : (reportEvents k devId prev (setModifiers prev m)).presses = [] :=
    reportEvents_presses fun v hv _ => hv
  rw [report_codes, hpresses, List.map_nil]
  show pressCodes (if modsFromHid m ≠ modsFromHid prev.modifiers then
    modifierEvents (modsFromHid prev.modifiers) (modsFromHid m) devId else []) ++ [] = _
  rw [List.append_nil, deltaCodes]
  split
  · exact modifierEvents_codes ..
  · rfl

end Codes

/-! ### The modifier word -/

/- Caps Lock after some presses. -/
def capsAfter (caps : Bool) (codes : List Keycode) : Bool :=
  codes.foldl (fun caps code => caps ^^ decide (code = kcCapsLock)) caps

theorem toggleLocks_caps (mods : Mods) (e : KeyEvent) :
    capsBit (toggleLocks mods e) =
      capsAfter (capsBit mods) (if e.type = .press then [e.code] else []) := by
  have hbit : ∀ n (m : Mods), (m ^^^ 1#16 <<< n).getLsbD 8 = (m.getLsbD 8 ^^ decide (n = 8)) := by
    intro n m
    rw [BitVec.getLsbD_xor, ← BitVec.twoPow_eq, BitVec.getLsbD_twoPow]
    simp
    omega
  have hother : ∀ (c : Prop) [Decidable c] (n : ℕ), n ≠ 8 → ∀ m : Mods,
      (if c then m ^^^ 1#16 <<< n else m).getLsbD 8 = m.getLsbD 8 := by
    intro c _ n hn m
    split
    · rw [hbit, decide_eq_false hn, Bool.xor_false]
    · rfl
  unfold toggleLocks
  rw [capsBit_eq, capsBit_eq]
  split
  · refine (hother _ 10 (by decide) _).trans ((hother _ 9 (by decide) _).trans ?_)
    show (if e.code = kcCapsLock then mods ^^^ 1#16 <<< 8 else mods).getLsbD 8 =
      (mods.getLsbD 8 ^^ decide (e.code = kcCapsLock))
    by_cases hcode : e.code = kcCapsLock
    · rw [if_pos hcode, hbit, decide_eq_true hcode]
      rfl
    · rw [if_neg hcode, decide_eq_false hcode, Bool.xor_false]
  · rfl

theorem foldl_caps (mods : Mods) (events : List KeyEvent) :
    capsBit (events.foldl modsAfter mods) = capsAfter (capsBit mods) (pressCodes events) := by
  induction events generalizing mods with
  | nil => rfl
  | cons e events ih =>
    rw [List.foldl_cons, ih, modsAfter, updateModifiers_caps, toggleLocks_caps, pressCodes_cons,
      capsAfter, capsAfter, capsAfter, List.foldl_append]

theorem capsAfter_codeList (caps : Bool) (code : Keycode) :
    capsAfter caps (codeList code) = (caps ^^ decide (code = kcCapsLock)) := by
  unfold codeList
  by_cases h : code ≠ kcNone
  · rw [if_pos h]
    rfl
  · rw [not_not] at h
    rw [h]
    cases caps <;> rfl

theorem shifted_eq (mods : Mods) : shifted mods = (capsBit mods || isSet mods kmShift) := rfl

/-! ### Keys -/

def ModKey.code : ModKey → Keycode
  | lshift => kcLshift
  | rshift => kcRshift
  | lctrl => kcLctrl
  | rctrl => kcRctrl
  | lalt => kcLalt
  | ralt => kcRalt

/- When a modifier key may go down, given the modifier byte. -/
def ModKey.ready (m : UInt8) : ModKey → Bool
  | lshift => !hidBit m 5
  | rshift => hidBit m 1
  | lctrl => true
  | lalt => true
  | rctrl => false
  | ralt => false

/- What the two tables say about one key. -/
structure KeyTable (l : Layout) (set1 usage : UInt8) (extended : Bool) : Prop where
  isSet1 : IsSet1 set1
  usage_ne : usage ≠ 0
  not_shift : isShift set1 = false
  code : ∀ shift, ps2Code l set1 extended shift = usageCode l usage shift
  char : layoutChar l set1 false = layoutChar l set1 true →
    usageCode l usage false = usageCode l usage true
  caps : ∀ shift, decide (usageCode l usage shift = kcCapsLock) = (decide (set1 = scCapslock) && !extended)

/- The same, for one state of Shift. -/
def keyAgrees (l : Layout) (set1 usage : UInt8) (extended shift : Bool) : Bool :=
  ps2Code l set1 extended shift = usageCode l usage shift ∧
    decide (usageCode l usage shift = kcCapsLock) = (decide (set1 = scCapslock) && !extended)

def keyCheck (l : Layout) (extended : Bool) (key : UInt8 × UInt8) : Bool :=
  IsSet1 key.1 ∧ key.2 ≠ 0 ∧ isShift key.1 = false ∧ keyAgrees l key.1 key.2 extended false = true ∧
    keyAgrees l key.1 key.2 extended true = true ∧
    (layoutChar l key.1 false = layoutChar l key.1 true →
      usageCode l key.2 false = usageCode l key.2 true)

theorem keyTable_of_check {l : Layout} {extended : Bool} {key : UInt8 × UInt8}
    (h : keyCheck l extended key = true) : KeyTable l key.1 key.2 extended := by
  obtain ⟨hset1, hne, hshift, hplain, hshifted, hchar⟩ := of_decide_eq_true h
  have hagrees : ∀ shift, keyAgrees l key.1 key.2 extended shift = true := by
    intro shift
    cases shift with
    | false => exact hplain
    | true => exact hshifted
  exact ⟨hset1, hne, hshift, fun shift => (of_decide_eq_true (hagrees shift)).1, hchar,
    fun shift => (of_decide_eq_true (hagrees shift)).2⟩

theorem keyTable (l : Layout) (k : UsageKey) : KeyTable l k.set1 k.usage k.extended := by
  have hplain : (charKeys ++ controlKeys).all (keyCheck l false) = true := by
    cases l <;> decide +kernel
  have hnavigation : navigationKeys.all (keyCheck l true) = true := by
    cases l <;> decide +kernel
  obtain ⟨set1, extended, usage, known⟩ := k
  cases extended with
  | false => exact keyTable_of_check (List.all_eq_true.mp hplain (set1, usage) known)
  | true => exact keyTable_of_check (List.all_eq_true.mp hnavigation (set1, usage) known)

/- The modifier byte before and after a modifier key moves; `down` is where the
last transition of a Shift key went. -/
structure ModTable (m m' : UInt8) (key : ModKey) (pressed down : Bool) : Prop where
  codes : deltaCodes m m' = if pressed then [key.code] else []
  shift : (followBits (hidBits m .shift) (hidBits m' .shift) (down || hidBit m 5, false)).1 =
    ((if isShift key.set1.1 then pressed else down) || hidBit m' 5)
  right : hidBit m' 4 = false ∧ hidBit m' 6 = false

instance (m m' : UInt8) (key : ModKey) (pressed down : Bool) :
    Decidable (ModTable m m' key pressed down) :=
  decidable_of_iff (deltaCodes m m' = (if pressed then [key.code] else []) ∧
    (followBits (hidBits m .shift) (hidBits m' .shift) (down || hidBit m 5, false)).1 =
      ((if isShift key.set1.1 then pressed else down) || hidBit m' 5) ∧
    hidBit m' 4 = false ∧ hidBit m' 6 = false)
    ⟨fun ⟨a, b, c⟩ => ⟨a, b, c⟩, fun ⟨a, b, c⟩ => ⟨a, b, c⟩⟩

/- All keys and modifier bytes are tried: a ready key goes down, or a key that is
down goes up. -/
theorem modTable {m : UInt8} {key : ModKey} (pressed down : Bool)
    (h4 : hidBit m 4 = false) (h6 : hidBit m 6 = false) (hbit : hidBit m key.bit = !pressed)
    (hready : (!pressed || key.ready m) = true) :
    ModTable m (if pressed then m ||| modBit key else m &&& ~~~modBit key) key pressed down := by
  have htable : ∀ key ∈ [ModKey.lshift, .rshift, .lctrl, .rctrl, .lalt, .ralt], ∀ pressed down,
      ∀ n < 256, hidBit (UInt8.ofNat n) 4 = false → hidBit (UInt8.ofNat n) 6 = false →
        hidBit (UInt8.ofNat n) key.bit = !pressed →
        (!pressed || key.ready (UInt8.ofNat n)) = true →
        ModTable (UInt8.ofNat n) (if pressed then UInt8.ofNat n ||| modBit key else
          UInt8.ofNat n &&& ~~~modBit key) key pressed down := by
    decide +kernel
  have hm := htable key (by cases key <;> decide) pressed down m.toNat m.toNat_lt
  rw [UInt8.ofNat_toNat] at hm
  exact hm h4 h6 hbit hready

theorem modKey_isSet1 (key : ModKey) : IsSet1 key.set1.1 := by
  cases key <;> decide

/- A ready key has the same keycode on PS/2. -/
theorem modKey_code {m : UInt8} {key : ModKey} (h : key.ready m = true) (l : Layout) (shift : Bool) :
    codeList (ps2Code l key.set1.1 key.set1.2 shift) = [key.code] := by
  cases key with
  | lshift => cases l <;> cases shift <;> decide
  | rshift => cases l <;> cases shift <;> decide
  | lctrl => cases l <;> cases shift <;> decide
  | rctrl => exact absurd h Bool.false_ne_true
  | lalt => cases l <;> cases shift <;> decide
  | ralt => exact absurd h Bool.false_ne_true

/-! ### Agreement -/

/- The two keyboards have dispatched the same PRESS keycodes. -/
def SameCodes (s : Typing) : Prop := s.ps2Codes = s.usbCodes

/- The condition on one transition: a key with two characters only goes down
while both keyboards shift it or both do not, right Shift only while left Shift
is down and left Shift only while right Shift is up, and right Ctrl and right
Alt never. -/
def Agreeable (i : Fin maxUsbKeyboards) (s : Typing) (tr : Transition) : Prop :=
  tr.down = true → (tr.nextReport (s.report i)).isSome →
    match tr.key with
    | .usage k => layoutChar s.usb.kbd.tables k.set1 false = layoutChar s.usb.kbd.tables k.set1 true ∨
        s.shiftDown = true ∨ s.capsOdd = false ∧ hidBit (s.report i).modifiers ModKey.rshift.bit = false
    | .modifier m => m.ready (s.report i).modifiers = true

/- What the keyboards have in common, and where they differ: on USB Caps Lock
works, and Shift stays on while right Shift is down. -/
structure Agree (i : Fin maxUsbKeyboards) (s : Typing) : Prop where
  codes : SameCodes s
  tables : s.ps2.1.tables = s.usb.kbd.tables
  e0 : s.ps2.1.ps2E0 = false
  enabled : Keyboard.enabled (s.usb.usb i) = true
  ps2Caps : capsBit s.ps2.1.mods = false
  ps2Shift : isSet s.ps2.1.mods kmShift = s.shiftDown
  usbCaps : capsBit s.usb.kbd.mods = s.capsOdd
  usbShift : isSet s.usb.kbd.mods kmShift = (s.shiftDown || hidBit (s.report i).modifiers 5)
  rightUp : hidBit (s.report i).modifiers 4 = false ∧ hidBit (s.report i).modifiers 6 = false

section Step
variable {t : TextMode} {i : Fin maxUsbKeyboards} {s : Typing}

/- The modifier byte stays as it is. -/
theorem followBits_same (bits now : Bool × Bool) : followBits now now bits = bits := by
  rw [followBits, if_neg (not_not.mpr rfl), if_neg (not_not.mpr rfl)]

/- The aggregate bit does not depend on the right-hand one. -/
theorem followBits_fst (prev now : Bool × Bool) (agg right right' : Bool) :
    (followBits prev now (agg, right)).1 = (followBits prev now (agg, right')).1 := by
  unfold followBits
  split <;> rfl

/- After a report that dispatches the keycodes `codes`, and bytes of the key `set1`. -/
theorem Agree.after (h : Agree i s) {set1 : UInt8} {extended down : Bool} {report : Report}
    {codes : List Keycode} {shiftDown capsOdd : Bool} (hset1 : IsSet1 set1)
    (hps2 : pressCodes (ps2Events t s.ps2 (keyBytes set1 extended down)) = codes)
    (husb : pressCodes (eventsAt s.usb i report).all = codes)
    (hshift : shiftDown = if isShift set1 then down else s.shiftDown)
    (hcaps : capsAfter s.capsOdd codes = capsOdd)
    (hbits : (followBits (hidBits (s.report i).modifiers .shift) (hidBits report.modifiers .shift)
      (s.shiftDown || hidBit (s.report i).modifiers 5, false)).1 = (shiftDown || hidBit report.modifiers 5))
    (hright : hidBit report.modifiers 4 = false ∧ hidBit report.modifiers 6 = false) :
    Agree i ⟨ps2Bytes t s.ps2 (keyBytes set1 extended down),
      keyboardUsbOnBootReport t s.usb i.val report,
      s.ps2Codes ++ pressCodes (ps2Events t s.ps2 (keyBytes set1 extended down)),
      s.usbCodes ++ pressCodes (eventsAt s.usb i report).all, shiftDown, capsOdd⟩ := by
  have hkey : AfterKey s.ps2 (ps2Bytes t s.ps2 (keyBytes set1 extended down)) set1 down :=
    ps2Bytes_key extended down hset1
  have hreported := onBootReport_reported t s.usb i report h.enabled
  have hpair := (onBootReport_enabled t s.usb i report h.enabled .shift).2.2
  have hold : pairBits s.usb.kbd.mods .shift =
      (s.shiftDown || hidBit (s.report i).modifiers 5, isSet s.usb.kbd.mods kmRshift) :=
    Prod.ext h.usbShift rfl
  rw [hold] at hpair
  refine ⟨?_, ?_, hkey.e0, hreported.enabled, hkey.caps.trans h.ps2Caps, ?_, ?_, ?_, ?_⟩
  · show s.ps2Codes ++ _ = s.usbCodes ++ _
    rw [hps2, husb, h.codes]
  · exact hkey.tables.trans (h.tables.trans hreported.tables.symm)
  · exact hkey.shift.trans (by rw [h.ps2Shift]; exact hshift.symm)
  · show capsBit (keyboardUsbOnBootReport t s.usb i.val report).kbd.mods = capsOdd
    rw [hreported.mods, foldl_caps, husb, h.usbCaps]
    exact hcaps
  · have hagg := congrArg Prod.fst hpair
    rw [Typing.report, hreported.last]
    exact hagg.trans ((followBits_fst ..).trans hbits)
  · rw [Typing.report, hreported.last]
    exact hright

/- Which table the two keyboards look a key up in. -/
theorem Agree.shifted (h : Agree i s) : shifted s.ps2.1.mods = s.shiftDown ∧
    Keyboard.shifted s.usb.kbd.mods =
      (s.capsOdd || (s.shiftDown || hidBit (s.report i).modifiers 5)) := by
  rw [shifted_eq, shifted_eq, h.ps2Caps, h.ps2Shift, h.usbCaps, h.usbShift]
  exact ⟨Bool.false_or _, rfl⟩

theorem Agree.usage_press (h : Agree i s) {k : UsageKey} {report : Report}
    (hok : Agreeable i s ⟨.usage k, true⟩)
    (hnext : (Transition.mk (.usage k) true).nextReport (s.report i) = some report) :
    Agree i (typeKey t i s ⟨.usage k, true⟩) := by
  have hcond := hok rfl (by rw [hnext]; rfl)
  have htable := keyTable s.usb.kbd.tables k
  obtain ⟨hps2, husb⟩ := h.shifted
  obtain ⟨hnew, hadd⟩ := nextReport_usage_press hnext
  have hmods := (addUsage_split hadd).1
  -- both keyboards find the same character
  have hcode : ps2Code s.ps2.1.tables k.set1 k.extended (Keyboard.shifted s.ps2.1.mods) =
      usageCode s.usb.kbd.tables k.usage (Keyboard.shifted s.usb.kbd.mods) := by
    rw [h.tables, htable.code, hps2, husb]
    obtain hchar | hshift | ⟨hcaps, hright⟩ := hcond
    · have hany : ∀ b, usageCode s.usb.kbd.tables k.usage b = usageCode s.usb.kbd.tables k.usage false := by
        intro b
        cases b with
        | false => rfl
        | true => exact (htable.char hchar).symm
      rw [hany, hany (s.capsOdd || _)]
    · rw [hshift, Bool.true_or, Bool.or_true]
    · have hright' : hidBit (s.report i).modifiers 5 = false := hright
      rw [hcaps, hright', Bool.or_false, Bool.false_or]
  unfold typeKey
  rw [hnext]
  refine h.after htable.isSet1 (ps2Events_key k.extended true htable.isSet1 h.e0) ?_ ?_ ?_ ?_ ?_
  · exact (usage_press_codes hadd htable.usage_ne hnew).trans (by rw [hcode]; rfl)
  · rw [htable.not_shift]
    rfl
  · rw [if_pos rfl, capsAfter_codeList, hcode, htable.caps]
    rfl
  · rw [hmods, followBits_same]
    rfl
  · rw [hmods]
    exact h.rightUp

theorem Agree.usage_release (h : Agree i s) {k : UsageKey} {report : Report}
    (hnext : (Transition.mk (.usage k) false).nextReport (s.report i) = some report) :
    Agree i (typeKey t i s ⟨.usage k, false⟩) := by
  have htable := keyTable s.usb.kbd.tables k
  have hremove := nextReport_usage_release hnext
  have hmods : report.modifiers = (s.report i).modifiers := by
    rw [hremove]
    exact removeUsage_modifiers _ _
  unfold typeKey
  rw [hnext]
  refine h.after htable.isSet1 (ps2Events_key k.extended false htable.isSet1 h.e0) ?_ ?_ ?_ ?_ ?_
  · rw [hremove]
    exact usage_release_codes k.usage
  · rw [htable.not_shift]
    rfl
  · exact (Bool.xor_false s.capsOdd).symm
  · rw [hmods, followBits_same]
    rfl
  · rw [hmods]
    exact h.rightUp

theorem Agree.modifier_press (h : Agree i s) {m : ModKey} {report : Report}
    (hok : Agreeable i s ⟨.modifier m, true⟩)
    (hnext : (Transition.mk (.modifier m) true).nextReport (s.report i) = some report) :
    Agree i (typeKey t i s ⟨.modifier m, true⟩) := by
  have hready : m.ready (s.report i).modifiers = true := hok rfl (by rw [hnext]; rfl)
  obtain ⟨hup, hset⟩ := nextReport_modifier_press hnext
  have htable := modTable true s.shiftDown h.rightUp.1 h.rightUp.2 hup hready
  have hps2 := ps2Events_key (t := t) m.set1.2 true (modKey_isSet1 m) h.e0
  rw [if_pos rfl, modKey_code hready] at hps2
  unfold typeKey
  rw [hnext]
  refine h.after (modKey_isSet1 m) hps2 ?_ ?_ ?_ ?_ ?_
  · rw [hset]
    exact (modifier_codes _).trans htable.codes
  · cases m <;> rfl
  · cases m <;> exact Bool.xor_false s.capsOdd
  · rw [hset]
    cases m <;> exact htable.shift
  · rw [hset]
    exact htable.right

theorem Agree.modifier_release (h : Agree i s) {m : ModKey} {report : Report}
    (hnext : (Transition.mk (.modifier m) false).nextReport (s.report i) = some report) :
    Agree i (typeKey t i s ⟨.modifier m, false⟩) := by
  obtain ⟨hheld, hset⟩ := nextReport_modifier_release hnext
  have htable := modTable false s.shiftDown h.rightUp.1 h.rightUp.2 hheld rfl
  unfold typeKey
  rw [hnext]
  refine h.after (modKey_isSet1 m) (ps2Events_key m.set1.2 false (modKey_isSet1 m) h.e0) ?_ ?_ ?_ ?_ ?_
  · rw [hset]
    exact (modifier_codes _).trans htable.codes
  · cases m <;> rfl
  · rfl
  · rw [hset]
    cases m <;> exact htable.shift
  · rw [hset]
    exact htable.right

theorem Agree.typeKey (h : Agree i s) {tr : Transition} (hok : Agreeable i s tr) :
    Agree i (Keyboard.typeKey t i s tr) := by
  cases hnext : tr.nextReport (s.report i) with
  | none =>
    unfold Keyboard.typeKey
    rw [hnext]
    exact h
  | some report =>
    obtain ⟨key, down⟩ := tr
    cases key with
    | usage k =>
      cases down with
      | false => exact h.usage_release hnext
      | true => exact h.usage_press hok hnext
    | modifier m =>
      cases down with
      | false => exact h.modifier_release hnext
      | true => exact h.modifier_press hok hnext

end Step

def typeStep (t : TextMode) (i : Fin maxUsbKeyboards) (s : Typing) (tr : Transition) : Option Typing :=
  some (typeKey t i s tr)

/- Both copies of the keyboard layer after `kbd_subsystem_init`. -/
def startTyping (k : Kbd) (s : Console) (sys : KeyboardSystem) : Typing :=
  ⟨(kbdSubsystemInit k, s), {sys with kbd := kbdSubsystemInit k}, [], [], false, false⟩

/- Each byte dispatches its event. -/
def BytesDispatched (t : TextMode) : Kbd × Console → List UInt8 → Prop
  | _, [] => True
  | ks, sc :: stream =>
    ps2Irq1Handler t ks sc =
      dispatchEvents t (ps2Prepared ks.1 sc, ks.2) (ps2Event ks.1 sc).toList ∧
    BytesDispatched t (ps2Irq1Handler t ks sc) stream

theorem bytesDispatched (t : TextMode) (ks : Kbd × Console) (stream : List UInt8) :
    BytesDispatched t ks stream := by
  induction stream generalizing ks with
  | nil => trivial
  | cons sc stream ih => exact ⟨ps2Irq1Handler_eq t ks sc, ih _⟩

/- The two drivers dispatch the events whose keycodes are collected. -/
def Dispatched (t : TextMode) (i : Fin maxUsbKeyboards) (s : Typing) (tr : Transition) : Prop :=
  ∀ report, tr.nextReport (s.report i) = some report →
    BytesDispatched t s.ps2 tr.bytes ∧ Reported t s.usb i report (typeKey t i s tr).usb

theorem Agree.dispatched {t : TextMode} {i : Fin maxUsbKeyboards} {s : Typing} (h : Agree i s)
    (tr : Transition) : Dispatched t i s tr := by
  intro report hnext
  refine ⟨bytesDispatched t s.ps2 tr.bytes, ?_⟩
  unfold Keyboard.typeKey
  rw [hnext]
  exact onBootReport_reported t s.usb i report h.enabled

/-- For a keyboard that has sent no report yet, with either layout: in every
typing whose transitions all meet the condition, the two drivers dispatch the events
of each transition, and the two keyboards have dispatched the same PRESS keycodes
after each of them. -/
theorem ps2_usb_agree (t : TextMode) (k : Kbd) (s : Console) (sys : KeyboardSystem)
    (i : Fin maxUsbKeyboards) (hen : enabled (sys.usb i) = true)
    (hlast : (sys.usb i).lastReport = fun _ => 0) (trs : List Transition)
    (hok : Run.Guarded (typeStep t i) (Agreeable i) (startTyping k s sys) trs) :
    Run.Guarded (typeStep t i) (Dispatched t i) (startTyping k s sys) trs ∧
      Run.Throughout (typeStep t i) SameCodes (startTyping k s sys) trs := by
  have hreport : ((startTyping k s sys).report i).modifiers = 0 := congrFun hlast _
  have hstart : Agree i (startTyping k s sys) := by
    have hcaps : capsBit 0 = false := by decide
    have hshift : isSet 0 kmShift = false := by decide
    refine ⟨rfl, rfl, rfl, hen, hcaps, hshift, hcaps, ?_, ?_⟩
    · rw [hreport]
      exact hshift
    · rw [hreport]
      decide
  have hrun : Run.Throughout (typeStep t i) (Agree i) (startTyping k s sys) trs := by
    refine Run.throughout_of_invariant ?_ hstart hok
    intro s tr hs htr
    exact ⟨_, rfl, hs.typeKey htr⟩
  refine ⟨Run.Guarded.of_invariant ?_ hstart hok, hrun.mono fun _ h => h.codes⟩
  rintro s tr hs htr
  refine ⟨hs.dispatched tr, ?_⟩
  rintro s' ⟨⟩
  exact hs.typeKey htr

/- The key of `A` on QWERTY, `Q` on AZERTY. -/
def keyA : UsageKey := ⟨0x1E, false, 0x04, by decide⟩

theorem ps2_usb_agree_shifted_letter :
    Run.Guarded (typeStep vgaText 0) (Dispatched vgaText 0)
        (startTyping kbdStatic biosConsole oneKeyboard)
        [⟨.modifier .lshift, true⟩, ⟨.usage keyA, true⟩] ∧
      Run.Throughout (typeStep vgaText 0) SameCodes (startTyping kbdStatic biosConsole oneKeyboard)
        [⟨.modifier .lshift, true⟩, ⟨.usage keyA, true⟩] := by
  refine ps2_usb_agree vgaText kbdStatic biosConsole oneKeyboard 0 (by decide) rfl _ ⟨fun _ _ => ?_, ?_⟩
  · decide
  · rintro _ ⟨⟩
    exact ⟨fun _ _ => Or.inr (Or.inl rfl), fun _ _ => trivial⟩

/- Right Ctrl: PS/2 takes it for left Ctrl, and USB reports both. -/
theorem right_ctrl_differs :
    ¬ Run.Throughout (typeStep vgaText 0) SameCodes (startTyping kbdStatic biosConsole oneKeyboard)
      [⟨.modifier .rctrl, true⟩] := by
  rintro ⟨-, _, ⟨⟩, hcodes⟩
  have hcodes' : [kcLctrl] = [kcLctrl, kcRctrl] := hcodes
  exact absurd hcodes' (by decide)

end CasseOS.Keyboard
