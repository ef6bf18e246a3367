import CasseOS.Keyboard.HotPlug
import CasseOS.Keyboard.Releases

/-! # Key transitions of a USB keyboard

The two loops of `keyboard_usb_on_boot_report` compare a report with the last
one that was accepted. A usage is released when it stands in the last report
only and pressed when it stands in the new one only; reports to a disabled
keyboard are dropped, and the comparison goes on from the report before. -/

namespace CasseOS.Keyboard
open Screen

inductive Edge where
  | press
  | release
  deriving DecidableEq, Repr

/-! ### Alternation -/

/- The transitions take a key that is down or up to where it is at the end. -/
def Toggles : Bool → List Edge → Bool → Prop
  | down, [], down' => down = down'
  | down, e :: es, down' => e = (if down then .release else .press) ∧ Toggles (!down) es down'

def AlternateFromPress (l : List Edge) : Prop :=
  l.IsChain (· ≠ ·) ∧ ∀ e ∈ l.head?, e = .press

theorem Toggles.append {down mid down' : Bool} {l l' : List Edge} (h : Toggles down l mid)
    (h' : Toggles mid l' down') : Toggles down (l ++ l') down' := by
  induction l generalizing down with
  | nil =>
    cases h
    exact h'
  | cons e es ih => exact ⟨h.1, ih h.2⟩

theorem Toggles.head {down down' : Bool} {l : List Edge} (h : Toggles down l down') :
    ∀ e ∈ l.head?, e = if down then .release else .press := by
  cases l with
  | nil => simp
  | cons e es =>
    intro e' he'
    cases he'
    exact h.1

theorem Toggles.isChain {down down' : Bool} {l : List Edge} (h : Toggles down l down') :
    l.IsChain (· ≠ ·) := by
  induction l generalizing down with
  | nil => exact List.IsChain.nil
  | cons e es ih =>
    refine List.isChain_cons.mpr ⟨?_, ih h.2⟩
    intro e' he'
    rw [h.1, h.2.head e' he']
    cases down <;> decide

theorem Toggles.last {down down' : Bool} {l : List Edge} (h : Toggles down l down') :
    l.getLast?.getD (if down then .press else .release) = if down' then .press else .release := by
  induction l generalizing down with
  | nil =>
    cases h
    rfl
  | cons e es ih =>
    have hstep := ih h.2
    cases es with
    | nil =>
      cases h.2
      rw [h.1]
      cases down <;> rfl
    | cons e' es =>
      rw [List.getLast?_cons_cons]
      rw [List.getLast?_cons, Option.getD_some] at hstep ⊢
      exact hstep

theorem Toggles.alternate {down' : Bool} {l : List Edge} (h : Toggles false l down') :
    AlternateFromPress l ∧ (l.getLast? = some .press ↔ down' = true) := by
  refine ⟨⟨h.isChain, h.head⟩, ?_⟩
  have hlast := h.last
  cases hl : l.getLast? with
  | none =>
    rw [hl] at hlast
    revert hlast
    cases down' <;> decide
  | some e =>
    rw [hl] at hlast
    revert hlast
    cases e <;> cases down' <;> decide

/-! ### The transitions of a report -/

def releasedUsages (prev report : Report) : List UInt8 :=
  (usages prev).filter fun u => u ≠ 0 ∧ reportContains report u = false

def pressedUsages (prev report : Report) : List UInt8 :=
  (usages report).filter fun u => u ≠ 0 ∧ reportContains prev u = false

/- In the order the loops make them. -/
def reportTransitions (prev report : Report) : List (UInt8 × Edge) :=
  (releasedUsages prev report).map (·, .release) ++ (pressedUsages prev report).map (·, .press)

/- A transition is dispatched if the usage has a keycode. -/
def emitTransition (t : TextMode) (mods : Mods) (devId : UInt8) (ks : Kbd × Console) :
    UInt8 × Edge → Kbd × Console
  | (u, .release) =>
    if releaseCode ks.1 u ≠ kcNone then emitKey t false (releaseCode ks.1 u) mods devId ks else ks
  | (u, .press) =>
    if pressCode ks.1 u ≠ kcNone then emitKey t true (pressCode ks.1 u) mods devId ks else ks

/- The two loops get to the transitions and to nothing else. -/
theorem emitReport_transitions (t : TextMode) (devId : UInt8) (prev report : Report)
    (ks : Kbd × Console) :
    emitReport t devId prev report ks =
      (reportTransitions prev report).foldl (emitTransition t (modsFromHid report.modifiers) devId)
        (if modsFromHid report.modifiers ≠ modsFromHid prev.modifiers then
          emitModifierDeltas t (modsFromHid prev.modifiers) (modsFromHid report.modifiers) devId ks
        else ks) := by
  simp only [reportTransitions, List.foldl_append, List.foldl_map, releasedUsages, pressedUsages,
    List.foldl_filter, usages, decide_eq_true_eq]
  rfl

def transitionsOf (u : UInt8) (l : List (UInt8 × Edge)) : List Edge :=
  (l.filter fun x => x.1 = u).map Prod.snd

theorem transitionsOf_append (u : UInt8) (l l' : List (UInt8 × Edge)) :
    transitionsOf u (l ++ l') = transitionsOf u l ++ transitionsOf u l' := by
  rw [transitionsOf, List.filter_append, List.map_append]
  rfl

theorem transitionsOf_map (u : UInt8) (us : List UInt8) (e : Edge) :
    transitionsOf u (us.map (·, e)) = List.replicate (us.count u) e := by
  induction us with
  | nil => rfl
  | cons v us ih =>
    rw [List.map_cons, transitionsOf]
    by_cases hv : v = u
    · rw [List.filter_cons_of_pos (by simpa using hv), List.map_cons, ← transitionsOf, ih, hv,
        List.count_cons_self, List.replicate_succ]
    · rw [List.filter_cons_of_neg (by simpa using hv), ← transitionsOf, ih, List.count_cons_of_ne hv]

/- What one of the loops does for a usage: once if it stands in the first report
and not in the second. -/
theorem count_changed {r other : Report} {u : UInt8} (hdist : DistinctUsages r) (hu : u ≠ 0) :
    ((usages r).filter fun v => v ≠ 0 ∧ reportContains other v = false).count u =
      if reportContains r u && !reportContains other u then 1 else 0 := by
  cases hother : reportContains other u with
  | true =>
    rw [if_neg (by simp)]
    refine List.count_eq_zero.mpr fun hmem => ?_
    have hnot := of_decide_eq_true (List.mem_filter.mp hmem).2
    rw [hother] at hnot
    exact absurd hnot.2 (by decide)
  | false =>
    rw [List.count_filter (by simp [hu, hother])]
    cases hr : reportContains r u with
    | true => exact hdist.count_eq hu hr
    | false =>
      refine List.count_eq_zero.mpr fun hmem => ?_
      rw [mem_usages.mp hmem] at hr
      exact absurd hr (by decide)

/- One report: a usage goes from where it was in the last one to where it is. -/
theorem reportTransitions_toggles {prev report : Report} {u : UInt8} (hprev : DistinctUsages prev)
    (hreport : DistinctUsages report) (hu : u ≠ 0) :
    Toggles (reportContains prev u) (transitionsOf u (reportTransitions prev report))
      (reportContains report u) := by
  rw [reportTransitions, transitionsOf_append, transitionsOf_map, transitionsOf_map, releasedUsages,
    pressedUsages, count_changed hprev hu, count_changed hreport hu]
  cases reportContains prev u <;> cases reportContains report u
  · exact rfl
  · exact ⟨rfl, rfl⟩
  · exact ⟨rfl, rfl⟩
  · exact rfl

/-! ### Runs -/

/-- `keyboard_usb_set_enabled` (`keyboard_usb.c:184-191`). -/
def keyboardUsbSetEnabled (sys : KeyboardSystem) (devIndex : ℤ) (on : Bool) : KeyboardSystem :=
  if h : 0 ≤ devIndex ∧ devIndex < maxUsbKeyboards then
    let i : Fin maxUsbKeyboards := ⟨devIndex.toNat, slot_lt h⟩
    let d := sys.usb i
    if initialised d then
      setSlot sys i {d with
        status := if on then d.status ||| kbStatEnabled else d.status &&& ~~~kbStatEnabled}
    else sys
  else sys

inductive SlotOp where
  | report (devIndex : ℤ) (r : Report)
  | setEnabled (devIndex : ℤ) (on : Bool)

def slotStep (t : TextMode) (sys : KeyboardSystem) : SlotOp → KeyboardSystem
  | .report devIndex r => keyboardUsbOnBootReport t sys devIndex r
  | .setEnabled devIndex on => keyboardUsbSetEnabled sys devIndex on

/- The report the keyboard of a slot accepts in a step. -/
def accepted (sys : KeyboardSystem) (i : Fin maxUsbKeyboards) : SlotOp → Option Report
  | .report devIndex r => if devIndex = i.val ∧ enabled (sys.usb i) = true then some r else none
  | .setEnabled _ _ => none

/- The transitions made for the keyboard of a slot. -/
def stepTransitions (sys : KeyboardSystem) (i : Fin maxUsbKeyboards) (op : SlotOp) :
    List (UInt8 × Edge) :=
  ((accepted sys i op).map (reportTransitions (sys.usb i).lastReport)).getD []

def runTransitions (t : TextMode) (i : Fin maxUsbKeyboards) :
    KeyboardSystem → List SlotOp → List (UInt8 × Edge)
  | _, [] => []
  | sys, op :: ops => stepTransitions sys i op ++ runTransitions t i (slotStep t sys op) ops

def acceptedReports (t : TextMode) (i : Fin maxUsbKeyboards) :
    KeyboardSystem → List SlotOp → List Report
  | _, [] => []
  | sys, op :: ops => (accepted sys i op).toList ++ acceptedReports t i (slotStep t sys op) ops

/- The usage is in the last report that was accepted. -/
def LastAccepted (t : TextMode) (i : Fin maxUsbKeyboards) (sys : KeyboardSystem)
    (ops : List SlotOp) (u : UInt8) : Prop :=
  ∃ r ∈ (acceptedReports t i sys ops).getLast?, reportContains r u = true

section Step
variable (t : TextMode) (sys : KeyboardSystem) (i : Fin maxUsbKeyboards)

theorem onBootReport_lastReport (devIndex : ℤ) (r : Report) :
    ((keyboardUsbOnBootReport t sys devIndex r).usb i).lastReport =
      (accepted sys i (.report devIndex r)).getD (sys.usb i).lastReport := by
  unfold keyboardUsbOnBootReport accepted
  dsimp only
  split
  · next hslot =>
    by_cases hi : devIndex = i.val
    · subst hi
      simp only [Int.toNat_natCast, Fin.eta, true_and]
      split
      · simp only [setSlot, Function.update_self, Option.getD_some]
      · rfl
    · have hne : i ≠ ⟨devIndex.toNat, slot_lt hslot⟩ := by
        intro h
        have hval := congrArg Fin.val h
        dsimp only at hval
        omega
      rw [if_neg (not_and_of_not_left _ hi)]
      split
      · simp only [setSlot, Function.update_of_ne hne, Option.getD_none]
      · rfl
  · next hslot =>
    have hi : devIndex ≠ i.val := by
      have hlt := i.isLt
      omega
    rw [if_neg (not_and_of_not_left _ hi)]
    rfl

theorem setEnabled_lastReport (devIndex : ℤ) (on : Bool) :
    ((keyboardUsbSetEnabled sys devIndex on).usb i).lastReport = (sys.usb i).lastReport := by
  unfold keyboardUsbSetEnabled
  split
  · next hslot =>
    dsimp only
    split
    · rw [setSlot]
      dsimp only
      by_cases hi : i = ⟨devIndex.toNat, slot_lt hslot⟩
      · subst hi
        rw [Function.update_self]
      · rw [Function.update_of_ne hi]
    · rfl
  · rfl

theorem slotStep_lastReport (op : SlotOp) : ((slotStep t sys op).usb i).lastReport =
    (accepted sys i op).getD (sys.usb i).lastReport := by
  cases op with
  | report devIndex r => exact onBootReport_lastReport t sys i devIndex r
  | setEnabled devIndex on => exact setEnabled_lastReport sys i devIndex on

end Step

/- What is sent to the slot has distinct usages. -/
def DistinctReports (i : Fin maxUsbKeyboards) (ops : List SlotOp) : Prop :=
  ∀ r, SlotOp.report i.val r ∈ ops → DistinctUsages r

theorem mem_accepted {sys : KeyboardSystem} {i : Fin maxUsbKeyboards} {op : SlotOp} {r : Report}
    (h : accepted sys i op = some r) : op = .report i.val r := by
  cases op with
  | report devIndex r' =>
    rw [accepted] at h
    split at h
    · next hi =>
      cases h
      rw [hi.1]
    · cases h
  | setEnabled devIndex on => cases h

theorem step_toggles {t : TextMode} {sys : KeyboardSystem} {i : Fin maxUsbKeyboards} {op : SlotOp}
    {u : UInt8} (hlast : DistinctUsages (sys.usb i).lastReport)
    (hop : ∀ r, op = .report i.val r → DistinctUsages r) (hu : u ≠ 0) :
    DistinctUsages ((slotStep t sys op).usb i).lastReport ∧
      Toggles (reportContains (sys.usb i).lastReport u) (transitionsOf u (stepTransitions sys i op))
        (reportContains ((slotStep t sys op).usb i).lastReport u) := by
  rw [slotStep_lastReport, stepTransitions]
  cases hacc : accepted sys i op with
  | none => exact ⟨hlast, rfl⟩
  | some r =>
    have hr := hop r (mem_accepted hacc)
    exact ⟨hr, reportTransitions_toggles hlast hr hu⟩

/- The report the slot holds at the end of a run. -/
def finalReport (t : TextMode) (i : Fin maxUsbKeyboards) (sys : KeyboardSystem)
    (ops : List SlotOp) : Report :=
  (acceptedReports t i sys ops).getLast?.getD (sys.usb i).lastReport

theorem finalReport_cons (t : TextMode) (i : Fin maxUsbKeyboards) (sys : KeyboardSystem)
    (op : SlotOp) (ops : List SlotOp) :
    finalReport t i sys (op :: ops) = finalReport t i (slotStep t sys op) ops := by
  rw [finalReport, finalReport, slotStep_lastReport, acceptedReports, List.getLast?_append]
  cases accepted sys i op with
  | none => cases (acceptedReports t i (slotStep t sys op) ops).getLast? <;> rfl
  | some r => cases (acceptedReports t i (slotStep t sys op) ops).getLast? <;> rfl

theorem run_toggles {t : TextMode} {i : Fin maxUsbKeyboards} {u : UInt8} (hu : u ≠ 0)
    (ops : List SlotOp) (sys : KeyboardSystem) (hlast : DistinctUsages (sys.usb i).lastReport)
    (hops : DistinctReports i ops) :
    Toggles (reportContains (sys.usb i).lastReport u) (transitionsOf u (runTransitions t i sys ops))
      (reportContains (finalReport t i sys ops) u) := by
  induction ops generalizing sys with
  | nil => exact rfl
  | cons op ops ih =>
    obtain ⟨hlast', hstep⟩ := step_toggles (t := t) hlast
      (fun r hr => hops r (hr ▸ List.mem_cons_self ..)) hu
    rw [runTransitions, transitionsOf_append, finalReport_cons]
    exact hstep.append (ih _ hlast' fun r hr => hops r (List.mem_cons_of_mem _ hr))

theorem emptyReport_contains {u : UInt8} (hu : u ≠ 0) : reportContains (fun _ => 0) u = false := by
  simp [reportContains, Ne.symm hu]

theorem emptyReport_distinct : DistinctUsages fun _ => 0 := by
  intro u hu
  rw [List.count_eq_zero.mpr]
  · exact Nat.zero_le 1
  · rw [mem_usages, emptyReport_contains hu]
    decide

theorem register_lastReport {sys : KeyboardSystem} {i : Fin maxUsbKeyboards} {a e n : UInt8}
    {w : UInt16} (h : (keyboardRegisterUsbBootKeyboard sys a e n w).1 = i.val) :
    ((keyboardRegisterUsbBootKeyboard sys a e n w).2.usb i).lastReport = fun _ => 0 := by
  unfold keyboardRegisterUsbBootKeyboard at h ⊢
  cases hf : (List.finRange maxUsbKeyboards).find? fun i => (sys.usb i).status &&& kbStatInit = 0 with
  | some j =>
    rw [hf] at h
    dsimp only at h
    have hj : j = i := Fin.ext (by exact_mod_cast h)
    subst hj
    simp only [setSlot, Function.update_self]
  | none =>
    rw [hf] at h
    dsimp only at h
    omega

/-! ### They are what the driver makes -/

def slotRun (t : TextMode) (sys : KeyboardSystem) (ops : List SlotOp) : KeyboardSystem :=
  ops.foldl (slotStep t) sys

/- The events of the modifier keys, which a report has first. -/
def emitModifiers (t : TextMode) (devId : UInt8) (prev report : Report) (ks : Kbd × Console) :
    Kbd × Console :=
  if modsFromHid report.modifiers ≠ modsFromHid prev.modifiers then
    emitModifierDeltas t (modsFromHid prev.modifiers) (modsFromHid report.modifiers) devId ks
  else ks

/- What a step does for the keyboard of a slot: an accepted report makes its
transitions, one after the other; a report that is not accepted does nothing. -/
def MakesTransitions (t : TextMode) (i : Fin maxUsbKeyboards) (sys : KeyboardSystem)
    (op : SlotOp) : Prop :=
  match accepted sys i op with
  | some r => ((slotStep t sys op).kbd, (slotStep t sys op).console) =
      (stepTransitions sys i op).foldl
        (emitTransition t (modsFromHid r.modifiers) (sys.usb i).devId)
        (emitModifiers t (sys.usb i).devId (sys.usb i).lastReport r (sys.kbd, sys.console))
  | none => stepTransitions sys i op = [] ∧ ∀ r, op = .report i.val r → slotStep t sys op = sys

theorem makesTransitions (t : TextMode) (i : Fin maxUsbKeyboards) (sys : KeyboardSystem)
    (op : SlotOp) : MakesTransitions t i sys op := by
  have hi : (0 : ℤ) ≤ i.val ∧ (i.val : ℤ) < maxUsbKeyboards := ⟨by omega, by exact_mod_cast i.isLt⟩
  unfold MakesTransitions
  cases hacc : accepted sys i op with
  | some r =>
    obtain rfl := mem_accepted hacc
    have hen : enabled (sys.usb i) = true := by
      rw [accepted] at hacc
      split at hacc
      · next h => exact h.2
      · cases hacc
    have hemit := emitReport_transitions t (sys.usb i).devId (sys.usb i).lastReport r
      (sys.kbd, sys.console)
    simp only [stepTransitions, hacc, Option.map_some, Option.getD_some]
    refine Eq.trans ?_ hemit
    simp only [slotStep, keyboardUsbOnBootReport, dif_pos hi, Int.toNat_natCast, Fin.eta, if_pos hen,
      setSlot]
  | none =>
    dsimp only
    refine ⟨by rw [stepTransitions, hacc]; rfl, ?_⟩
    rintro r rfl
    have hoff : ¬enabled (sys.usb i) = true := by
      intro hen
      rw [accepted, if_pos ⟨rfl, hen⟩] at hacc
      cases hacc
    simp only [slotStep, keyboardUsbOnBootReport, dif_pos hi, Int.toNat_natCast, Fin.eta, if_neg hoff]

/-- From its registration on, each step makes its transitions; those of a usage
alternate, a press first, and the last one is a press exactly when the usage is in the
last report that was accepted. -/
theorem usage_transitions_alternate (t : TextMode) (sys : KeyboardSystem)
    (address endpointAddr intervalMs : UInt8) (wMaxPacketSize : UInt16) (i : Fin maxUsbKeyboards)
    (hreg : (keyboardRegisterUsbBootKeyboard sys address endpointAddr intervalMs wMaxPacketSize).1 =
      i.val) (ops : List SlotOp) (hdist : DistinctReports i ops) (u : UInt8) (hu : u ≠ 0) :
    let sys' :=
      (keyboardRegisterUsbBootKeyboard sys address endpointAddr intervalMs wMaxPacketSize).2
    (∀ pre op post, ops = pre ++ op :: post → MakesTransitions t i (slotRun t sys' pre) op) ∧
      AlternateFromPress (transitionsOf u (runTransitions t i sys' ops)) ∧
      ((transitionsOf u (runTransitions t i sys' ops)).getLast? = some .press ↔
        LastAccepted t i sys' ops u) := by
  intro sys'
  have hlast : (sys'.usb i).lastReport = fun _ => 0 := register_lastReport hreg
  have hrun := run_toggles (t := t) hu ops sys' (hlast ▸ emptyReport_distinct) hdist
  rw [hlast, emptyReport_contains hu] at hrun
  obtain ⟨halt, hpress⟩ := hrun.alternate
  refine ⟨fun pre op _ _ => makesTransitions t i (slotRun t sys' pre) op, halt, hpress.trans ?_⟩
  rw [finalReport, hlast, LastAccepted]
  cases (acceptedReports t i sys' ops).getLast? with
  | none =>
    have hempty := emptyReport_contains hu
    simp [hempty]
  | some r => simp

/- A key is released while the keyboard is disabled; the next report, with
another key, brings the release. -/
def pausedKeys : List SlotOp :=
  [.report 0 (keyReport 0 0x04), .setEnabled 0 false, .report 0 (keyReport 0 0), .setEnabled 0 true,
    .report 0 (keyReport 0 0x05)]

theorem usage_transitions_alternate_paused :
    (∀ pre op post, pausedKeys = pre ++ op :: post →
      MakesTransitions vgaText 0 (slotRun vgaText oneKeyboard pre) op) ∧
    transitionsOf 0x04 (runTransitions vgaText 0 oneKeyboard pausedKeys) = [.press, .release] ∧
      AlternateFromPress (transitionsOf 0x04 (runTransitions vgaText 0 oneKeyboard pausedKeys)) := by
  have hdist : DistinctReports 0 pausedKeys := by
    intro r hr
    simp only [pausedKeys, List.mem_cons, SlotOp.report.injEq, reduceCtorEq, List.not_mem_nil,
      false_or, or_false] at hr
    obtain ⟨-, rfl⟩ | ⟨-, rfl⟩ | ⟨-, rfl⟩ := hr <;> exact keyReport_distinct _ _
  obtain ⟨hmade, halt, -⟩ := usage_transitions_alternate vgaText
    ⟨fun _ => ⟨0, 0, 0, 0, 0, fun _ => 0, 0, 0⟩, kbdStatic, biosConsole⟩ 1 0x81 10 8 0 rfl pausedKeys
    hdist 0x04 (by decide)
  exact ⟨hmade, by decide +kernel, halt⟩

end CasseOS.Keyboard
