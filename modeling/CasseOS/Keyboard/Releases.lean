import CasseOS.Keyboard.UsbEvents

/-! # Releases of USB keys

A usage that disappears from the reports was pressed under the modifiers of its
time; its release is looked up with none. -/

namespace CasseOS.Keyboard
open Screen

/-! ### The keycodes of a usage -/

/- The character of a usage, if it has one. -/
def usageChar (l : Layout) (u : UInt8) (shift : Bool) : UInt8 :=
  if hidUsageToSet1 u = 0xFF then 0 else layoutChar l (hidUsageToSet1 u) shift

/- The keycode of a press. -/
def usageCode (l : Layout) (u : UInt8) (shift : Bool) : Keycode :=
  if usageChar l u shift ≠ 0 then (usageChar l u shift).toUInt16 else hidUsageToExtKc u

theorem hidUsageToAscii_eq (k : Kbd) (u : UInt8) (mods : Mods) :
    hidUsageToAscii k u mods = usageChar k.tables u (shifted mods) := by
  rw [hidUsageToAscii, usageChar, layoutAscii_eq]

theorem pressCode_eq (k : Kbd) (u : UInt8) : pressCode k u = usageCode k.tables u (shifted k.mods) := by
  simp only [pressCode, hidUsageToAscii_eq]
  rfl

/- A usage has no character with Shift only, and its extended keycode, if it has
one beside a character, is that character. -/
structure UsageTable (l : Layout) (u : UInt8) : Prop where
  char : usageChar l u false = 0 → usageChar l u true = 0
  ext : hidUsageToExtKc u ≠ kcNone → usageChar l u false ≠ 0 →
    hidUsageToExtKc u = (usageChar l u false).toUInt16

def usageCheck (l : Layout) (u : UInt8) : Bool :=
  (usageChar l u false = 0 → usageChar l u true = 0) ∧
    (hidUsageToExtKc u ≠ kcNone → usageChar l u false ≠ 0 →
      hidUsageToExtKc u = (usageChar l u false).toUInt16)

theorem usageTable (l : Layout) (u : UInt8) : UsageTable l u := by
  have hcheck : hidUsageMap.all (fun m => usageCheck l m.1) = true := by
    cases l <;> decide +kernel
  cases hfind : hidUsageMap.find? fun m => m.1 = u with
  | none =>
    have hnone : ∀ shift, usageChar l u shift = 0 := by
      intro shift
      rw [usageChar, hidUsageToSet1, hfind]
      rfl
    exact ⟨fun _ => hnone true, fun _ h => absurd (hnone false) h⟩
  | some m =>
    have hmem := List.mem_of_find?_eq_some hfind
    obtain rfl : m.1 = u := by simpa using List.find?_some hfind
    obtain ⟨hchar, hext⟩ := of_decide_eq_true (List.all_eq_true.mp hcheck m hmem)
    exact ⟨hchar, hext⟩

theorem char_code_ne_none {ch : UInt8} (h : ch ≠ 0) : ch.toUInt16 ≠ kcNone := by
  intro hz
  have hnat := congrArg UInt16.toNat hz
  rw [UInt8.toNat_toUInt16] at hnat
  exact h (UInt8.toNat_inj.mp hnat)

/- A release is looked up as a press with no Shift and no Caps Lock. -/
theorem releaseCode_eq (k : Kbd) (u : UInt8) : releaseCode k u = usageCode k.tables u false := by
  have hshift : shifted 0 = false := by decide
  have htable := usageTable k.tables u
  simp only [releaseCode, hidUsageToAscii_eq, hshift, usageCode]
  by_cases hext : hidUsageToExtKc u = kcNone
  · rw [if_pos hext]
  · rw [if_neg hext]
    split
    · next hchar => exact htable.ext hext hchar
    · rfl

/- A key that is pressed is released. -/
theorem usageCode_plain {l : Layout} {u : UInt8} {shift : Bool} (h : usageCode l u shift ≠ kcNone) :
    usageCode l u false ≠ kcNone := by
  cases shift with
  | false => exact h
  | true =>
    unfold usageCode at h ⊢
    by_cases hchar : usageChar l u false = 0
    · rw [if_neg (not_not.mpr ((usageTable l u).char hchar))] at h
      rw [if_neg (not_not.mpr hchar)]
      exact h
    · rw [if_pos hchar]
      exact char_code_ne_none hchar

/-! ### The events of one usage -/

def eventsOf (u : UInt8) (l : List UsageEvent) : List UsageEvent := l.filter fun e => e.usage = u

section Loop
variable {event : Kbd → UInt8 → Option UsageEvent} (husage : ∀ k u, ∀ e ∈ event k u, e.usage = u)
  {u : UInt8}
include husage

theorem eventsOf_other {k : Kbd} {v : UInt8} (h : v ≠ u) : eventsOf u (event k v).toList = [] := by
  rw [eventsOf, List.filter_eq_nil_iff]
  intro e he
  rw [husage k v e (Option.mem_toList.mp he), decide_eq_true_eq]
  exact h

theorem eventsOf_self (k : Kbd) : eventsOf u (event k u).toList = (event k u).toList := by
  rw [eventsOf, List.filter_eq_self]
  intro e he
  exact decide_eq_true (husage k u e (Option.mem_toList.mp he))

theorem eventsOf_not_mem {us : List UInt8} (k : Kbd) (h : u ∉ us) :
    eventsOf u (loopEvents event k us) = [] := by
  induction us generalizing k with
  | nil => rfl
  | cons v us ih =>
    rw [List.mem_cons, not_or] at h
    rw [loopEvents, eventsOf, List.filter_append, ← eventsOf, ← eventsOf,
      eventsOf_other husage (Ne.symm h.1), ih _ h.2]
    rfl

/- Where a usage stands once, the loop gets to it once. -/
theorem eventsOf_once {us : List UInt8} (k : Kbd) (h : us.count u = 1) :
    ∃ mods, eventsOf u (loopEvents event k us) = (event {k with mods} u).toList := by
  induction us generalizing k with
  | nil => exact absurd h (by simp)
  | cons v us ih =>
    rw [loopEvents, eventsOf, List.filter_append, ← eventsOf, ← eventsOf]
    by_cases hv : v = u
    · subst hv
      rw [List.count_cons_self] at h
      have hnot : v ∉ us := List.count_eq_zero.mp (by omega)
      refine ⟨k.mods, ?_⟩
      rw [eventsOf_not_mem husage _ hnot, eventsOf_self husage, List.append_nil]
    · rw [List.count_cons_of_ne hv] at h
      rw [eventsOf_other husage hv, List.nil_append]
      exact ih _ h

end Loop

/- The key slots hold distinct usages; 0 stands for an empty slot. -/
def DistinctUsages (r : Report) : Prop := ∀ u, u ≠ 0 → (usages r).count u ≤ 1

theorem mem_usages {r : Report} {u : UInt8} : u ∈ usages r ↔ reportContains r u = true := by
  simp [usages, reportContains]

theorem DistinctUsages.count_eq {r : Report} {u : UInt8} (h : DistinctUsages r) (hu : u ≠ 0)
    (hmem : reportContains r u = true) : (usages r).count u = 1 := by
  have hpos := List.count_pos_iff.mpr (mem_usages.mpr hmem)
  have hle := h u hu
  omega

theorem mem_pressEvent {mods : Mods} {devId : UInt8} {prev : Report} {k : Kbd} {u : UInt8}
    {e : UsageEvent} (h : e ∈ pressEvent mods devId prev k u) :
    e = ⟨u, k.mods, ⟨.press, pressCode k u, mods, .usb, devId⟩⟩ ∧ pressCode k u ≠ kcNone := by
  unfold pressEvent at h
  split at h
  · next hpress =>
    cases h
    exact ⟨rfl, hpress.2⟩
  · cases h

theorem pressEvent_usage (mods : Mods) (devId : UInt8) (prev : Report) (k : Kbd) (u : UInt8) :
    ∀ e ∈ pressEvent mods devId prev k u, e.usage = u := by
  intro e he
  rw [(mem_pressEvent he).1]

theorem releaseEvent_usage (mods : Mods) (devId : UInt8) (report : Report) (k : Kbd) (u : UInt8) :
    ∀ e ∈ releaseEvent mods devId report k u, e.usage = u := by
  intro e he
  unfold releaseEvent at he
  split at he
  · cases he
    rfl
  · cases he

section Report
variable {sys : KeyboardSystem} {i : Fin maxUsbKeyboards} {report : Report} {u : UInt8}

/- What a press of a usage is. -/
theorem press_spec {p : UsageEvent} (hdist : DistinctUsages report) (hu : u ≠ 0)
    (hmem : reportContains report u = true) (hp : p ∈ eventsOf u (eventsAt sys i report).presses) :
    p.event.code = usageCode sys.kbd.tables u (shifted p.modsState) ∧ p.event.code ≠ kcNone := by
  obtain ⟨mods, hevents⟩ := eventsOf_once (pressEvent_usage _ _ _) _ (hdist.count_eq hu hmem)
  rw [eventsAt, reportEvents, hevents, Option.mem_toList] at hp
  obtain ⟨rfl, hne⟩ := mem_pressEvent hp
  exact ⟨pressCode_eq _ u, hne⟩

/- The release of a usage that has a keycode. -/
theorem release_spec (hdist : DistinctUsages (sys.usb i).lastReport) (hu : u ≠ 0)
    (hmem : reportContains (sys.usb i).lastReport u = true) (hgone : reportContains report u = false)
    (hcode : usageCode sys.kbd.tables u false ≠ kcNone) :
    ∃ r, eventsOf u (eventsAt sys i report).releases = [r] ∧ r.event.type = .release ∧
      r.event.code = usageCode sys.kbd.tables u false := by
  obtain ⟨mods, hevents⟩ := eventsOf_once (releaseEvent_usage _ _ _) _ (hdist.count_eq hu hmem)
  have hrelease := releaseCode_eq sys.kbd u
  rw [eventsAt, reportEvents, hevents, releaseEvent,
    if_pos ⟨⟨hu, hgone⟩, fun hz => hcode (hrelease.symm.trans hz)⟩]
  exact ⟨_, rfl, rfl, hrelease⟩

end Report

/-! ### Runs -/

section Runs
variable {t : TextMode} {sys : KeyboardSystem} {i : Fin maxUsbKeyboards}

/- The keyboard stays enabled and the layout is not touched. -/
theorem bootReports_keeps (h : enabled (sys.usb i) = true) (reports : List Report) :
    enabled ((bootReports t sys i reports).usb i) = true ∧
      (bootReports t sys i reports).kbd.tables = sys.kbd.tables := by
  induction reports generalizing sys with
  | nil => exact ⟨h, rfl⟩
  | cons r reports ih =>
    have hreported := onBootReport_reported t sys i r h
    obtain ⟨hen, htables⟩ := ih hreported.enabled
    exact ⟨hen, htables.trans hreported.tables⟩

theorem bootReports_last {reports : List Report} (h : enabled (sys.usb i) = true) (hne : reports ≠ []) :
    ((bootReports t sys i reports).usb i).lastReport ∈ reports := by
  induction reports generalizing sys with
  | nil => exact absurd rfl hne
  | cons r reports ih =>
    have hreported := onBootReport_reported t sys i r h
    cases reports with
    | nil => exact List.mem_singleton.mpr hreported.last
    | cons r' reports => exact List.mem_cons_of_mem r (ih hreported.enabled (by simp))

theorem bootReports_append (pre post : List Report) :
    bootReports t sys i (pre ++ post) = bootReports t (bootReports t sys i pre) i post :=
  List.foldl_append ..

end Runs

/- At each report of a run the driver dispatches the events of that report. -/
def RunReported (t : TextMode) (sys : KeyboardSystem) (i : Fin maxUsbKeyboards)
    (reports : List Report) : Prop :=
  ∀ pre r post, reports = pre ++ r :: post →
    Reported t (bootReports t sys i pre) i r
      (keyboardUsbOnBootReport t (bootReports t sys i pre) i.val r)

theorem runReported {t : TextMode} {sys : KeyboardSystem} {i : Fin maxUsbKeyboards}
    (h : enabled (sys.usb i) = true) (reports : List Report) : RunReported t sys i reports :=
  fun pre r _ _ => onBootReport_reported t _ i r (bootReports_keeps h pre).1

/- A usage appears with the report `first`, is in the reports `mid` after it and
no longer in the report `gone`. -/
structure Held (t : TextMode) (sys : KeyboardSystem) (i : Fin maxUsbKeyboards) (pre : List Report)
    (first : Report) (mid : List Report) (gone : Report) (u : UInt8) : Prop where
  usage : u ≠ 0
  absent : reportContains ((bootReports t sys i pre).usb i).lastReport u = false
  held : ∀ r ∈ first :: mid, reportContains r u = true
  gone : reportContains gone u = false

/- The press events of a usage in the report after `pre`, and its releases. -/
def pressesFor (t : TextMode) (sys : KeyboardSystem) (i : Fin maxUsbKeyboards) (pre : List Report)
    (report : Report) (u : UInt8) : List UsageEvent :=
  eventsOf u (eventsAt (bootReports t sys i pre) i report).presses

def releasesFor (t : TextMode) (sys : KeyboardSystem) (i : Fin maxUsbKeyboards) (pre : List Report)
    (report : Report) (u : UInt8) : List UsageEvent :=
  eventsOf u (eventsAt (bootReports t sys i pre) i report).releases

/- Every release has a press with the same keycode, and every press a release. -/
def ReleasesMatch (t : TextMode) (sys : KeyboardSystem) (i : Fin maxUsbKeyboards)
    (reports : List Report) : Prop :=
  ∀ pre first mid gone post u, reports = (pre ++ first :: mid) ++ gone :: post →
    Held t sys i pre first mid gone u →
    (releasesFor t sys i (pre ++ first :: mid) gone u ≠ [] ↔ pressesFor t sys i pre first u ≠ []) ∧
    ∀ p ∈ pressesFor t sys i pre first u, ∀ r ∈ releasesFor t sys i (pre ++ first :: mid) gone u,
      r.event.code = p.event.code

/-- In every run the driver dispatches the events of each report, and among them a
usage that was pressed is released once, with the keycode its press has when neither
Shift nor Caps Lock is in effect. -/
theorem presses_are_released (t : TextMode) (sys : KeyboardSystem) (i : Fin maxUsbKeyboards)
    (reports : List Report) (hen : enabled (sys.usb i) = true)
    (hdist : ∀ r ∈ reports, DistinctUsages r) :
    RunReported t sys i reports ∧
    ∀ pre first mid gone post u, reports = (pre ++ first :: mid) ++ gone :: post →
      Held t sys i pre first mid gone u → ∀ p ∈ pressesFor t sys i pre first u,
      p.event.code = usageCode sys.kbd.tables u (shifted p.modsState) ∧
      ∃ r, releasesFor t sys i (pre ++ first :: mid) gone u = [r] ∧ r.event.type = .release ∧
        r.event.code = usageCode sys.kbd.tables u false ∧
        (shifted p.modsState = false → r.event.code = p.event.code) := by
  refine ⟨runReported hen reports, ?_⟩
  rintro pre first mid gone post u rfl hheld p hp
  obtain ⟨henpre, htables⟩ := bootReports_keeps (t := t) hen pre
  obtain ⟨-, htables'⟩ := bootReports_keeps (t := t) hen (pre ++ first :: mid)
  have hlast : ((bootReports t sys i (pre ++ first :: mid)).usb i).lastReport ∈ first :: mid := by
    rw [bootReports_append]
    exact bootReports_last henpre (by simp)
  obtain ⟨hcode, hne⟩ := press_spec (hdist first (by simp)) hheld.usage
    (hheld.held first (List.mem_cons_self ..)) hp
  rw [htables] at hcode
  obtain ⟨r, hr, htype, hrcode⟩ := release_spec
    (hdist _ (List.mem_append_left _ (List.mem_append_right _ hlast))) hheld.usage
    (hheld.held _ hlast) hheld.gone (by rw [htables']; exact usageCode_plain (hcode ▸ hne))
  rw [htables'] at hrcode
  refine ⟨hcode, r, hr, htype, hrcode, fun hshift => ?_⟩
  rw [hrcode, hcode, hshift]

/- A report with modifier byte `m` and one key. -/
def keyReport (m u : UInt8) : Report := fun i => if i.val = 0 then m else if i.val = 2 then u else 0

theorem keyReport_distinct (m v : UInt8) : DistinctUsages (keyReport m v) := by
  intro u hu
  have hcount : (usages (keyReport m v)).count u = [v].count u := by
    simp [usages, keySlots, keyReport, List.count_cons, Ne.symm hu]
  rw [hcount]
  exact List.count_le_length

/- Shift and a letter, then Shift alone. -/
def shiftedLetter : List Report := [keyReport 0x02 0x04, keyReport 0x02 0]

theorem shiftedLetter_held :
    Held vgaText oneKeyboard 0 [] (keyReport 0x02 0x04) [] (keyReport 0x02 0) 0x04 := by
  refine ⟨by decide, by decide, ?_, by decide⟩
  intro r hr
  rw [List.mem_singleton.mp hr]
  decide

theorem shiftedLetter_distinct : ∀ r ∈ shiftedLetter, DistinctUsages r := by
  intro r hr
  simp only [shiftedLetter, List.mem_cons, List.not_mem_nil, or_false] at hr
  obtain rfl | rfl := hr
  · exact keyReport_distinct _ _
  · exact keyReport_distinct _ _

/- On AZERTY it is pressed as `Q` and released as `q`. -/
theorem presses_are_released_shifted : RunReported vgaText oneKeyboard 0 shiftedLetter ∧
    ∃ r, releasesFor vgaText oneKeyboard 0 [keyReport 0x02 0x04] (keyReport 0x02 0) 0x04 = [r] ∧
      r.event.code = 113 := by
  obtain ⟨hreported, hrun⟩ := presses_are_released vgaText oneKeyboard 0 shiftedLetter
    (by decide) shiftedLetter_distinct
  obtain ⟨-, r, hr, -, hcode, -⟩ := hrun [] (keyReport 0x02 0x04) [] (keyReport 0x02 0) [] 0x04 rfl
    shiftedLetter_held ⟨0x04, kmShift, ⟨.press, 81, kmShift, .usb, 1⟩⟩ (by decide +kernel)
  exact ⟨hreported, r, hr, hcode.trans (by decide)⟩

theorem shifted_release_differs : ¬ ReleasesMatch vgaText oneKeyboard 0 shiftedLetter := by
  intro h
  have hcodes := (h [] (keyReport 0x02 0x04) [] (keyReport 0x02 0) [] 0x04 rfl shiftedLetter_held).2
    ⟨0x04, kmShift, ⟨.press, 81, kmShift, .usb, 1⟩⟩ (by decide +kernel)
    ⟨0x04, kmShift, ⟨.release, 113, kmShift, .usb, 1⟩⟩ (by decide +kernel)
  exact absurd hcodes (by decide)

end CasseOS.Keyboard
