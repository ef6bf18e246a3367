import CasseOS.Keyboard.Modifiers
import CasseOS.Keyboard.UsbBoot

/-! # Modifiers of a USB keyboard

A boot report carries one bit for each modifier key. The driver turns it into
aggregate and right-hand bits, emits the changes as events of the left and the
right keys, the left ones first, and the dispatcher folds them into the
modifier word. The right-hand bits follow the reports; an aggregate bit does
too, except after a report that releases the right key over a left key that is
down. -/

namespace CasseOS.Keyboard
open Screen

/- The aggregate and the right-hand bit of a pair. -/
def pairBits (mods : Mods) (p : ModPair) : Bool × Bool :=
  (isSet mods p.aggMask, isSet mods p.rightMask)

/-! ### Events of other keys -/

/- A keycode that is not a modifier key. -/
def Plain (code : Keycode) : Prop := ∀ p : ModPair, code ≠ p.left ∧ code ≠ p.right

theorem modsAfter_other {mods : Mods} {e : KeyEvent} {p : ModPair}
    (h : e.code ≠ p.left ∧ e.code ≠ p.right) : pairBits (modsAfter mods e) p = pairBits mods p := by
  rw [pairBits, modsAfter_agg, modsAfter_right, if_neg (not_or.mpr h), if_neg h.2]
  rfl

theorem plain_of_lt {code : Keycode} (h : code.toNat < 336) : Plain code := by
  intro p
  cases p <;> refine ⟨?_, ?_⟩ <;> rintro rfl <;> exact absurd h (by decide)

theorem extKc_plain (u : UInt8) : Plain (hidUsageToExtKc u) := by
  apply plain_of_lt
  unfold hidUsageToExtKc
  split <;> decide

theorem ascii_plain (ch : UInt8) : Plain ch.toUInt16 := by
  apply plain_of_lt
  have h := ch.toNat_lt
  rw [UInt8.toNat_toUInt16]
  omega

section Emit
variable (t : TextMode) (mods : Mods) (devId : UInt8) (rep : Report) (u : UInt8) (p : ModPair)

theorem emitKey_plain {code : Keycode} (h : Plain code) (pressed : Bool) (ks : Kbd × Console) :
    pairBits (emitKey t pressed code mods devId ks).1.mods p = pairBits ks.1.mods p := by
  rw [emitKey, dispatch_mods]
  exact modsAfter_other (h p)

theorem releaseCode_plain (k : Kbd) : Plain (releaseCode k u) := by
  unfold releaseCode
  by_cases hkc : hidUsageToExtKc u = kcNone
  · rw [if_pos hkc]
    by_cases hch : hidUsageToAscii k u 0 ≠ 0
    · rw [if_pos hch]
      exact ascii_plain _
    · rw [if_neg hch]
      exact extKc_plain u
  · rw [if_neg hkc]
    exact extKc_plain u

theorem pressCode_plain (k : Kbd) : Plain (pressCode k u) := by
  unfold pressCode
  by_cases hch : hidUsageToAscii k u (kbdModsState k) ≠ 0
  · rw [if_pos hch]
    exact ascii_plain _
  · rw [if_neg hch]
    exact extKc_plain u

theorem releaseUsage_bits (ks : Kbd × Console) :
    pairBits (releaseUsage t mods devId rep u ks).1.mods p = pairBits ks.1.mods p := by
  have hplain := releaseCode_plain u ks.1
  unfold releaseUsage
  generalize releaseCode ks.1 u = kc at hplain ⊢
  dsimp only
  split
  · split
    · exact emitKey_plain t mods devId p hplain false ks
    · rfl
  · rfl

theorem pressUsage_bits (ks : Kbd × Console) :
    pairBits (pressUsage t mods devId rep u ks).1.mods p = pairBits ks.1.mods p := by
  have hplain := pressCode_plain u ks.1
  unfold pressUsage
  generalize pressCode ks.1 u = kc at hplain ⊢
  dsimp only
  split
  · split
    · exact emitKey_plain t mods devId p hplain true ks
    · rfl
  · rfl

end Emit

theorem foldl_bits {p : ModPair} {f : Kbd × Console → Fin 8 → Kbd × Console}
    (hf : ∀ ks i, pairBits (f ks i).1.mods p = pairBits ks.1.mods p) (slots : List (Fin 8))
    (ks : Kbd × Console) : pairBits (slots.foldl f ks).1.mods p = pairBits ks.1.mods p := by
  induction slots generalizing ks with
  | nil => rfl
  | cons i slots ih => rw [List.foldl_cons, ih, hf]

/-! ### Modifier deltas -/

theorem isSet_xor (a b : Mods) {i : ℕ} (hi : i < 16) :
    isSet (a ^^^ b) (1#16 <<< i) = (isSet a (1#16 <<< i) ^^ isSet b (1#16 <<< i)) := by
  rw [isSet_bit _ hi, isSet_bit _ hi, isSet_bit _ hi, BitVec.getLsbD_xor]

theorem isSet_xor_agg (a b : Mods) (p : ModPair) :
    isSet (a ^^^ b) p.aggMask = (isSet a p.aggMask ^^ isSet b p.aggMask) := by
  cases p <;> exact isSet_xor a b (by decide)

theorem isSet_xor_right (a b : Mods) (p : ModPair) :
    isSet (a ^^^ b) p.rightMask = (isSet a p.rightMask ^^ isSet b p.rightMask) := by
  cases p <;> exact isSet_xor a b (by decide)

/- One round of the loop of `emit_modifier_deltas`, on the modifier word. -/
def deltaStep (prev now : Mods) (mods : Mods) (m : Mods × Keycode) : Mods :=
  if isSet (prev ^^^ now) m.1 then
    modsAfter mods ⟨if isSet now m.1 then .press else .release, m.2, now, .usb, 0⟩
  else mods

/- The modifier word does not depend on the annotations of an event. -/
theorem modsAfter_congr (mods : Mods) {e e' : KeyEvent} (ht : e.type = e'.type)
    (hc : e.code = e'.code) : modsAfter mods e = modsAfter mods e' := by
  simp only [modsAfter, updateModifiers, toggleLocks, ht, hc]

theorem emitModifierDeltas_mods (t : TextMode) (prev now : Mods) (devId : UInt8)
    (ks : Kbd × Console) :
    (emitModifierDeltas t prev now devId ks).1.mods =
      modifierMap.foldl (deltaStep prev now) ks.1.mods := by
  unfold emitModifierDeltas
  dsimp only
  induction modifierMap generalizing ks with
  | nil => rfl
  | cons m ms ih =>
    rw [List.foldl_cons, List.foldl_cons, ih]
    congr 1
    by_cases hc : (prev ^^^ now) &&& m.1 ≠ 0
    · rw [if_pos hc, deltaStep, if_pos (by simpa [isSet] using hc), emitKey, dispatch_mods]
      exact modsAfter_congr _ rfl rfl
    · rw [if_neg hc, deltaStep, if_neg (by simpa [isSet] using hc)]

theorem downAfter_ite (down now : Bool) :
    downAfter down (if now then .press else .release) = now := by
  cases now <;> rfl

/- The same round, on the two bits of a pair. -/
def bitStep (prev now : Mods) (p : ModPair) (bits : Bool × Bool) (m : Mods × Keycode) :
    Bool × Bool :=
  if isSet (prev ^^^ now) m.1 then
    (if m.2 = p.left ∨ m.2 = p.right then isSet now m.1 else bits.1,
      if m.2 = p.right then isSet now m.1 else bits.2)
  else bits

section Delta
variable (prev now : Mods) (p : ModPair)

theorem deltaStep_bits (mods : Mods) (m : Mods × Keycode) :
    pairBits (deltaStep prev now mods m) p = bitStep prev now p (pairBits mods p) m := by
  unfold deltaStep bitStep
  split
  · rw [pairBits, modsAfter_agg, modsAfter_right]
    simp only [downAfter_ite]
    rfl
  · rfl

theorem foldl_deltaStep (ms : List (Mods × Keycode)) (mods : Mods) :
    pairBits (ms.foldl (deltaStep prev now) mods) p =
      ms.foldl (bitStep prev now p) (pairBits mods p) := by
  induction ms generalizing mods with
  | nil => rfl
  | cons m ms ih => rw [List.foldl_cons, List.foldl_cons, ih, deltaStep_bits]

/- Of the eight rounds two are about the pair: the left key's, then the right
key's. -/
theorem foldl_bitStep (bits : Bool × Bool) :
    modifierMap.foldl (bitStep prev now p) bits =
      bitStep prev now p (bitStep prev now p bits (p.aggMask, p.left)) (p.rightMask, p.right) := by
  have hskip : ∀ (bits : Bool × Bool) (m : Mods × Keycode), m.2 ≠ p.left → m.2 ≠ p.right →
      bitStep prev now p bits m = bits := by
    intro bits m hl hr
    unfold bitStep
    rw [if_neg (not_or.mpr ⟨hl, hr⟩), if_neg hr]
    split <;> rfl
  simp only [modifierMap, List.foldl_cons, List.foldl_nil]
  cases p <;> simp (disch := decide) only [hskip] <;> rfl

end Delta

/- The aggregate and the right-hand bit of a pair after a report that changes
what `mods_from_hid` gives from `prev` to `now`. -/
def followBits (prev now bits : Bool × Bool) : Bool × Bool :=
  if prev.2 ≠ now.2 then (now.2, now.2)
  else (if prev.1 ≠ now.1 then now.1 else bits.1, bits.2)

theorem followBits_eq (x x' r r' a b : Bool) :
    (if (r ^^ r') = true then (r', r') else if (x ^^ x') = true then (x', b) else (a, b)) =
      followBits (x, r) (x', r') (a, b) := by
  revert x x' r r' a b
  decide

theorem deltas_bits (prev now mods : Mods) (p : ModPair) :
    pairBits (modifierMap.foldl (deltaStep prev now) mods) p =
      followBits (pairBits prev p) (pairBits now p) (pairBits mods p) := by
  have hne : p.left ≠ p.right := by cases p <;> decide
  rw [foldl_deltaStep, foldl_bitStep]
  simp only [bitStep, isSet_xor_agg, isSet_xor_right, pairBits, if_true, true_or, or_true,
    if_neg hne]
  exact followBits_eq ..

theorem emitReport_bits (t : TextMode) (devId : UInt8) (prev report : Report) (ks : Kbd × Console)
    (p : ModPair) :
    pairBits (emitReport t devId prev report ks).1.mods p =
      followBits (pairBits (modsFromHid (prev 0)) p) (pairBits (modsFromHid (report 0)) p)
        (pairBits ks.1.mods p) := by
  unfold emitReport
  dsimp only
  rw [foldl_bits (fun ks i => pressUsage_bits t _ devId prev (report i) p ks),
    foldl_bits (fun ks i => releaseUsage_bits t _ devId report (prev i) p ks)]
  by_cases hm : modsFromHid (report 0) ≠ modsFromHid (prev 0)
  · rw [if_pos hm, emitModifierDeltas_mods, deltas_bits]
  · rw [not_not] at hm
    rw [hm, if_neg (not_not.mpr rfl), followBits, if_neg (not_not.mpr rfl),
      if_neg (not_not.mpr rfl)]

/-! ### Runs of reports -/

/- What `mods_from_hid` gives for a pair. -/
def hidBits (m : UInt8) (p : ModPair) : Bool × Bool := pairBits (modsFromHid m) p

/- The bit of the left key; that of the right key is four further. -/
def ModPair.hidIndex : ModPair → UInt8
  | ctrl => 0
  | shift => 1
  | alt => 2
  | gui => 3

def leftDown (m : UInt8) (p : ModPair) : Bool := hidBit m p.hidIndex

def rightDown (m : UInt8) (p : ModPair) : Bool := hidBit m (p.hidIndex + 4)

/- `mods_from_hid`: the aggregate is set if one of the keys is down. -/
theorem modsFromHid_bits (m : UInt8) (p : ModPair) :
    isSet (modsFromHid m) p.aggMask = (leftDown m p || rightDown m p) ∧
      isSet (modsFromHid m) p.rightMask = rightDown m p := by
  unfold modsFromHid leftDown rightDown
  cases p
  all_goals
    simp only [ModPair.hidIndex, UInt8.reduceAdd]
    generalize hidBit m 0 = b0, hidBit m 1 = b1, hidBit m 2 = b2, hidBit m 3 = b3
    generalize hidBit m 4 = b4, hidBit m 5 = b5, hidBit m 6 = b6, hidBit m 7 = b7
    revert b0 b1 b2 b3 b4 b5 b6 b7
    decide

theorem hidBits_right {m : UInt8} {p : ModPair} (h : (hidBits m p).2 = true) :
    (hidBits m p).1 = true := by
  obtain ⟨hagg, hright⟩ := modsFromHid_bits m p
  have hr : rightDown m p = true := hright.symm.trans h
  refine hagg.trans ?_
  rw [hr, Bool.or_true]

/- When the bits of the pair last changed, the right key went up over a left
key that is down; `prev` and `stuck` stand for the reports before. -/
def releasedOverLeft (p : ModPair) : UInt8 → Bool → List Report → Bool
  | _, stuck, [] => stuck
  | prev, stuck, r :: reports =>
    releasedOverLeft p (r 0)
      (if hidBits prev p = hidBits (r 0) p then stuck
        else (hidBits prev p).2 && !(hidBits (r 0) p).2 && (hidBits (r 0) p).1) reports

theorem followBits_stuck {prev now : Bool × Bool} (stuck : Bool) (h : now.2 = true → now.1 = true) :
    followBits prev now (prev.1 && !stuck, prev.2) =
      (now.1 && !(if prev = now then stuck else prev.2 && !now.2 && now.1), now.2) := by
  revert h stuck
  obtain ⟨x, r⟩ := prev
  obtain ⟨x', r'⟩ := now
  revert x r x' r'
  decide

def lastModifiers (prev : UInt8) (reports : List Report) : UInt8 :=
  (reports.getLast?.map Report.modifiers).getD prev

/- Reports to one slot, in turn. -/
def bootReports (t : TextMode) (sys : KeyboardSystem) (i : Fin maxUsbKeyboards)
    (reports : List Report) : KeyboardSystem :=
  reports.foldl (fun sys r => keyboardUsbOnBootReport t sys i.val r) sys

theorem onBootReport_enabled (t : TextMode) (sys : KeyboardSystem) (i : Fin maxUsbKeyboards)
    (report : Report) (h : enabled (sys.usb i) = true) (p : ModPair) :
    let sys' := keyboardUsbOnBootReport t sys i.val report
    enabled (sys'.usb i) = true ∧ (sys'.usb i).lastReport = report ∧
      pairBits sys'.kbd.mods p = followBits (hidBits ((sys.usb i).lastReport 0) p)
        (hidBits (report 0) p) (pairBits sys.kbd.mods p) := by
  have hi : (0 : ℤ) ≤ i.val ∧ (i.val : ℤ) < maxUsbKeyboards := ⟨by omega, by exact_mod_cast i.isLt⟩
  have hbits := emitReport_bits t (sys.usb i).devId (sys.usb i).lastReport report
    (sys.kbd, sys.console) p
  simp only [keyboardUsbOnBootReport, dif_pos hi, Int.toNat_natCast, Fin.eta, if_pos h, setSlot,
    Function.update_self]
  exact ⟨h, trivial, hbits⟩

theorem bootReports_bits (t : TextMode) (i : Fin maxUsbKeyboards) (p : ModPair)
    (reports : List Report) (sys : KeyboardSystem) (stuck : Bool)
    (h : enabled (sys.usb i) = true)
    (hbits : pairBits sys.kbd.mods p = ((hidBits ((sys.usb i).lastReport 0) p).1 && !stuck,
      (hidBits ((sys.usb i).lastReport 0) p).2)) :
    pairBits (bootReports t sys i reports).kbd.mods p =
      ((hidBits (lastModifiers ((sys.usb i).lastReport 0) reports) p).1 &&
          !releasedOverLeft p ((sys.usb i).lastReport 0) stuck reports,
        (hidBits (lastModifiers ((sys.usb i).lastReport 0) reports) p).2) := by
  induction reports generalizing sys stuck with
  | nil => exact hbits
  | cons r reports ih =>
    obtain ⟨hen, hlast, hstep⟩ := onBootReport_enabled t sys i r h p
    rw [hbits, followBits_stuck stuck hidBits_right] at hstep
    have hrun := ih _ _ hen (by rw [hlast]; exact hstep)
    rw [hlast] at hrun
    have hmods : lastModifiers ((sys.usb i).lastReport 0) (r :: reports) =
        lastModifiers (r 0) reports := by
      cases reports with
      | nil => rfl
      | cons r' reports => rw [lastModifiers, List.getLast?_cons_cons, lastModifiers]; rfl
    rw [hmods]
    exact hrun

/-- A keyboard that has sent no report yet, as the only source from
`kbd_subsystem_init` on: after every report the right-hand bits are those of
`mods_from_hid`, and so are the aggregate bits of the pairs whose right key was
not last released over the left one; that aggregate bit is clear. -/
theorem boot_reports_modifiers (t : TextMode) (sys : KeyboardSystem) (i : Fin maxUsbKeyboards)
    (hen : enabled (sys.usb i) = true) (hlast : (sys.usb i).lastReport = fun _ => 0)
    (reports : List Report) (p : ModPair) :
    let mods := kbdModsState
      (bootReports t {sys with kbd := kbdSubsystemInit sys.kbd} i reports).kbd
    let hid := modsFromHid (lastModifiers 0 reports)
    isSet mods p.rightMask = isSet hid p.rightMask ∧
      isSet mods p.aggMask = (isSet hid p.aggMask && !releasedOverLeft p 0 false reports) := by
  have hzero : pairBits (kbdSubsystemInit sys.kbd).mods p =
      ((hidBits 0 p).1 && !false, (hidBits 0 p).2) := by
    show pairBits 0 p = _
    cases p <;> decide
  have hrun := bootReports_bits t i p reports {sys with kbd := kbdSubsystemInit sys.kbd} false hen
    (by rw [hlast]; exact hzero)
  rw [hlast] at hrun
  exact ⟨congrArg Prod.snd hrun, congrArg Prod.fst hrun⟩

/- A report with modifier byte `m` and no keys. -/
def modifierReport (m : UInt8) : Report := fun i => if i.val = 0 then m else 0

/- One keyboard registered in an empty table. -/
def oneKeyboard : KeyboardSystem :=
  (keyboardRegisterUsbBootKeyboard
    ⟨fun _ => ⟨0, 0, 0, 0, 0, fun _ => 0, 0, 0⟩, kbdStatic, biosConsole⟩ 1 0x81 10 8).2

theorem boot_reports_modifiers_shift :
    isSet (kbdModsState (bootReports vgaText {oneKeyboard with kbd := kbdSubsystemInit oneKeyboard.kbd}
      0 [modifierReport 0x20]).kbd) kmShift = true := by
  have h := boot_reports_modifiers vgaText oneKeyboard 0 (by decide) rfl [modifierReport 0x20] .shift
  exact h.2.trans (by decide)

/- Both Shift keys down, then the right one up: Shift is lost. -/
theorem boot_reports_lose_shift :
    isSet (kbdModsState (bootReports vgaText {oneKeyboard with kbd := kbdSubsystemInit oneKeyboard.kbd}
      0 [modifierReport 0x22, modifierReport 0x02]).kbd) kmShift = false ∧
    isSet (modsFromHid (modifierReport 0x02 0)) kmShift = true := by
  refine ⟨?_, by decide⟩
  have h := bootReports_bits vgaText 0 .shift [modifierReport 0x22, modifierReport 0x02]
    {oneKeyboard with kbd := kbdSubsystemInit oneKeyboard.kbd} false (by decide) (by decide)
  exact (congrArg Prod.fst h).trans (by decide)

end CasseOS.Keyboard
