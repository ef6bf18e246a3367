import CasseOS.Keyboard.Common
import CasseOS.Screen.VgaConsole

/-! # The modifier word

Each pair of modifier keys has an aggregate bit, which is also the bit of its
left key, and a bit of its right key. The dispatcher clears the aggregate on
every release, so the bit tells whether the latest press or release of the
pair was a press. -/

namespace CasseOS.Keyboard
open Screen

inductive ModPair where
  | shift
  | ctrl
  | alt
  | gui
  deriving DecidableEq, Repr

namespace ModPair

def left : ModPair → Keycode
  | shift => kcLshift
  | ctrl => kcLctrl
  | alt => kcLalt
  | gui => kcLgui

def right : ModPair → Keycode
  | shift => kcRshift
  | ctrl => kcRctrl
  | alt => kcRalt
  | gui => kcRgui

/- The aggregate bit. -/
def aggMask : ModPair → Mods
  | shift => kmShift
  | ctrl => kmCtrl
  | alt => kmAlt
  | gui => kmGui

/- The bit of the right key. -/
def rightMask : ModPair → Mods
  | shift => kmRshift
  | ctrl => kmRctrl
  | alt => kmRalt
  | gui => kmRgui

end ModPair

def isSet (mods mask : Mods) : Bool := mods &&& mask ≠ 0

/-! ### Single bits -/

theorem isSet_bit (mods : Mods) {i : ℕ} (hi : i < 16) :
    isSet mods (1#16 <<< i) = mods.getLsbD i := by
  rw [isSet, ← BitVec.twoPow_eq, BitVec.and_twoPow]
  cases hb : mods.getLsbD i with
  | false => simp
  | true =>
    have hne : BitVec.twoPow 16 i ≠ 0 := by
      intro hz
      have hbit := congrArg (fun x : Mods => x.getLsbD i) hz
      simp [hi] at hbit
    simpa using hne

/- The bit of a mask, for the masks of modifier keys. -/
def ModPair.bit : ModPair → ℕ
  | shift => 0
  | ctrl => 1
  | alt => 2
  | gui => 3

theorem isSet_agg (mods : Mods) (p : ModPair) : isSet mods p.aggMask = mods.getLsbD p.bit := by
  cases p <;> exact isSet_bit mods (by decide)

theorem isSet_right (mods : Mods) (p : ModPair) :
    isSet mods p.rightMask = mods.getLsbD (p.bit + 4) := by
  cases p <;> exact isSet_bit mods (by decide)

theorem ModPair.bit_lt (p : ModPair) : p.bit < 4 := by cases p <;> decide

/- Lock toggles only touch bits 8 to 10. -/
theorem toggleLocks_bit (mods : Mods) (e : KeyEvent) {i : ℕ} (hi : i < 8) :
    (toggleLocks mods e).getLsbD i = mods.getLsbD i := by
  have hbit : ∀ n, 8 ≤ n → ∀ m : Mods, (m ^^^ 1#16 <<< n).getLsbD i = m.getLsbD i := by
    intro n hn m
    have hne : decide (n = i) = false := decide_eq_false (by omega)
    rw [BitVec.getLsbD_xor, ← BitVec.twoPow_eq, BitVec.getLsbD_twoPow, hne, Bool.and_false,
      Bool.xor_false]
  have hite : ∀ (c : Prop) [Decidable c] (n : ℕ), 8 ≤ n → ∀ m : Mods,
      (if c then m ^^^ 1#16 <<< n else m).getLsbD i = m.getLsbD i := by
    intro c _ n hn m
    split
    · exact hbit n hn m
    · rfl
  unfold toggleLocks
  split
  · exact (hite _ 10 (by decide) _).trans
      ((hite _ 9 (by decide) _).trans (hite _ 8 (by decide) _))
  · rfl

/- The masks of a keycode, seen at the bits of one pair. -/
theorem modifierMasks_bits (p : ModPair) (code : Keycode) :
    ((modifierMasks code).1 ||| (modifierMasks code).2).getLsbD p.bit =
        decide (code = p.left ∨ code = p.right) ∧
      ((modifierMasks code).1 ||| (modifierMasks code).2).getLsbD (p.bit + 4) =
        decide (code = p.right) := by
  unfold modifierMasks
  split_ifs with h1 h2 h3 h4 h5 h6 h7 h8
  all_goals first
    | (subst code; cases p <;> decide)
    | (cases p <;> simp [ModPair.left, ModPair.right, *])

theorem updateModifiers_eq (mods : Mods) (e : KeyEvent) :
    updateModifiers mods e = match e.type with
      | .press => mods ||| ((modifierMasks e.code).1 ||| (modifierMasks e.code).2)
      | .release => mods &&& ~~~((modifierMasks e.code).1 ||| (modifierMasks e.code).2)
      | .autorepeat => mods := by
  unfold updateModifiers
  generalize modifierMasks e.code = masks
  obtain ⟨side, agg⟩ := masks
  dsimp only
  by_cases hz : side ≠ 0 ∨ agg ≠ 0
  · rw [if_pos hz]
    cases e.type with
    | press => exact BitVec.or_assoc ..
    | release => simp only [BitVec.not_or, BitVec.and_assoc]
    | autorepeat => rfl
  · -- no modifier key: all masks are 0
    push Not at hz
    obtain ⟨rfl, rfl⟩ := hz
    rw [if_neg (by simp)]
    cases e.type with
    | press => exact (BitVec.or_zero).symm
    | release => exact (BitVec.and_allOnes).symm
    | autorepeat => rfl

/-! ### One event -/

/- The modifier word after an event. -/
def modsAfter (mods : Mods) (e : KeyEvent) : Mods := updateModifiers (toggleLocks mods e) e

/- Whether a key is down after an event of it. -/
def downAfter (down : Bool) : KeyEventType → Bool
  | .press => true
  | .release => false
  | .autorepeat => down

theorem modsAfter_bit (mods : Mods) (e : KeyEvent) {i : ℕ} (hi : i < 8) :
    (modsAfter mods e).getLsbD i =
      if ((modifierMasks e.code).1 ||| (modifierMasks e.code).2).getLsbD i then
        downAfter (mods.getLsbD i) e.type
      else mods.getLsbD i := by
  have hlocks := toggleLocks_bit mods e hi
  have h16 : i < 16 := by omega
  rw [modsAfter, updateModifiers_eq]
  generalize (modifierMasks e.code).1 ||| (modifierMasks e.code).2 = mask
  cases e.type with
  | press =>
    rw [BitVec.getLsbD_or, hlocks]
    cases mask.getLsbD i <;> simp [downAfter]
  | release =>
    rw [BitVec.getLsbD_and, BitVec.getLsbD_not, hlocks]
    cases mask.getLsbD i <;> simp [downAfter, h16]
  | autorepeat =>
    dsimp only
    rw [hlocks]
    cases mask.getLsbD i <;> rfl

theorem modsAfter_agg (mods : Mods) (e : KeyEvent) (p : ModPair) :
    isSet (modsAfter mods e) p.aggMask =
      if e.code = p.left ∨ e.code = p.right then downAfter (isSet mods p.aggMask) e.type
      else isSet mods p.aggMask := by
  have hb := p.bit_lt
  rw [isSet_agg, isSet_agg, modsAfter_bit mods e (by omega), (modifierMasks_bits p e.code).1]
  simp only [decide_eq_true_eq]

theorem modsAfter_right (mods : Mods) (e : KeyEvent) (p : ModPair) :
    isSet (modsAfter mods e) p.rightMask =
      if e.code = p.right then downAfter (isSet mods p.rightMask) e.type
      else isSet mods p.rightMask := by
  have hb := p.bit_lt
  rw [isSet_right, isSet_right, modsAfter_bit mods e (by omega), (modifierMasks_bits p e.code).2]
  simp only [decide_eq_true_eq]

/-! ### Runs of events -/

/- `kbd_dispatch_event` for each event in turn. -/
def dispatchEvents (t : TextMode) (ks : Kbd × Console) (events : List KeyEvent) : Kbd × Console :=
  events.foldl (fun ks e => kbdDispatchEvent t ks.1 ks.2 e) ks

/- The key is held: its latest press or release was a press. -/
def held (code : Keycode) (events : List KeyEvent) : Bool :=
  events.foldl (fun down e => if e.code = code then downAfter down e.type else down) false

/- The latest press or release of either key of the pair was a press. -/
def latestPress (p : ModPair) (events : List KeyEvent) : Bool :=
  events.foldl
    (fun down e => if e.code = p.left ∨ e.code = p.right then downAfter down e.type else down) false

theorem dispatchEvents_mods (t : TextMode) (ks : Kbd × Console) (events : List KeyEvent) :
    (dispatchEvents t ks events).1.mods = events.foldl modsAfter ks.1.mods := by
  induction events generalizing ks with
  | nil => rfl
  | cons e events ih =>
    rw [dispatchEvents, List.foldl_cons, List.foldl_cons]
    exact (ih _).trans (by rw [dispatch_mods]; rfl)

theorem foldl_isSet {mask : Mods} {pressed : KeyEvent → Prop} [DecidablePred pressed]
    (hstep : ∀ mods e, isSet (modsAfter mods e) mask =
      if pressed e then downAfter (isSet mods mask) e.type else isSet mods mask)
    (mods : Mods) (events : List KeyEvent) :
    isSet (events.foldl modsAfter mods) mask =
      events.foldl (fun down e => if pressed e then downAfter down e.type else down)
        (isSet mods mask) := by
  induction events generalizing mods with
  | nil => rfl
  | cons e events ih => rw [List.foldl_cons, List.foldl_cons, ih, hstep]

/- The latest event of the pair is also the latest one of its key. -/
theorem held_of_latestPress (p : ModPair) (events : List KeyEvent) (h : latestPress p events = true) :
    held p.left events = true ∨ held p.right events = true := by
  unfold latestPress at h
  unfold held
  induction events using List.reverseRecOn with
  | nil => exact absurd h Bool.false_ne_true
  | append_singleton events e ih =>
    simp only [List.foldl_append, List.foldl_cons, List.foldl_nil] at h ⊢
    have hne : p.left ≠ p.right := by cases p <;> decide
    by_cases hl : e.code = p.left
    · rw [if_pos (Or.inl hl)] at h
      rw [if_pos hl, if_neg fun hr => hne (hl.symm.trans hr)]
      cases ht : e.type with
      | press => exact Or.inl rfl
      | release => rw [ht] at h; exact absurd h Bool.false_ne_true
      | autorepeat => rw [ht] at h; exact ih h
    · by_cases hr : e.code = p.right
      · rw [if_pos (Or.inr hr)] at h
        rw [if_neg hl, if_pos hr]
        cases ht : e.type with
        | press => exact Or.inr rfl
        | release => rw [ht] at h; exact absurd h Bool.false_ne_true
        | autorepeat => rw [ht] at h; exact ih h
      · rw [if_neg (not_or.mpr ⟨hl, hr⟩)] at h
        rw [if_neg hl, if_neg hr]
        exact ih h

/-- After any events from a clear modifier word, the right-hand bit tells
whether the right key is held, and the aggregate bit whether the latest press
or release of the pair was a press; then one of the two keys is held. -/
theorem dispatch_modifiers (t : TextMode) (k : Kbd) (s : Console) (events : List KeyEvent)
    (p : ModPair) :
    let mods := kbdModsState (dispatchEvents t ({k with mods := 0}, s) events).1
    (isSet mods p.rightMask = held p.right events) ∧
      (isSet mods p.aggMask = latestPress p events) ∧
      (isSet mods p.aggMask = true → held p.left events = true ∨ held p.right events = true) := by
  have hzero : ∀ mask, isSet 0 mask = false := fun mask => by simp [isSet]
  have hright := foldl_isSet (fun mods e => modsAfter_right mods e p) 0 events
  have hagg := foldl_isSet (fun mods e => modsAfter_agg mods e p) 0 events
  rw [hzero] at hright hagg
  simp only [kbdModsState, dispatchEvents_mods]
  exact ⟨hright, hagg, fun h => held_of_latestPress p events (hagg.symm.trans h)⟩

/-! ### Releasing one key of a pair -/

/- The presses and releases of a key alternate, starting with `down`. -/
def alternates (code : Keycode) : Bool → List KeyEvent → Bool
  | _, [] => true
  | down, e :: events =>
    if e.code = code then
      match e.type with
      | .press => !down && alternates code true events
      | .release => down && alternates code false events
      | .autorepeat => alternates code down events
    else alternates code down events

/- Left Shift down, right Shift down, right Shift up. -/
def rollOver : List KeyEvent :=
  [⟨.press, kcLshift, 0, .ps2, 0⟩, ⟨.press, kcRshift, 0, .ps2, 0⟩, ⟨.release, kcRshift, 0, .ps2, 0⟩]

/- The left key is still held, and the aggregate bit is clear. -/
theorem rollOver_clears_aggregate :
    (∀ p : ModPair, alternates p.left false rollOver = true ∧
      alternates p.right false rollOver = true) ∧
    held kcLshift rollOver = true ∧
    isSet (kbdModsState (dispatchEvents vgaText ({kbdStatic with mods := 0}, biosConsole)
      rollOver).1) kmShift = false := by
  refine ⟨?_, by decide, ?_⟩
  · intro p
    cases p <;> decide
  · rw [kbdModsState, dispatchEvents_mods]
    decide

end CasseOS.Keyboard
