import CasseOS.Keyboard.UsbBoot
import CasseOS.Screen.VgaConsole

/-! # Plugging and unplugging USB keyboards

A keyboard gets its logical id from an 8-bit counter that never goes back. The
ids are `1, 2, 3, ...` up to the 255th registration; the next one gets 0, the
id of the PS/2 keyboard. -/

namespace CasseOS.Keyboard
open Screen

/-- `kbd_unregister_device` (`keyboard_common.c:216-223`). -/
def kbdUnregisterDevice (k : Kbd) (logicalId : UInt8) : Kbd :=
  if logicalId = 0 then {k with ps2Registered := false} else k

/- A slot after `memset(d, 0, sizeof(*d))`. -/
def clearedSlot : UsbKeyboardDevice := ⟨0, 0, 0, 0, 0, fun _ => 0, 0, 0⟩

def initialised (d : UsbKeyboardDevice) : Bool := d.status &&& kbStatInit ≠ 0

theorem slot_lt {devIndex : ℤ} (h : 0 ≤ devIndex ∧ devIndex < maxUsbKeyboards) :
    devIndex.toNat < maxUsbKeyboards := by
  omega

/-- `keyboard_usb_unregister` (`keyboard_usb.c:200-208`). -/
def keyboardUsbUnregister (sys : KeyboardSystem) (devIndex : ℤ) : KeyboardSystem :=
  if h : 0 ≤ devIndex ∧ devIndex < maxUsbKeyboards then
    let i : Fin maxUsbKeyboards := ⟨devIndex.toNat, slot_lt h⟩
    let d := sys.usb i
    let sys := if initialised d then {sys with kbd := kbdUnregisterDevice sys.kbd d.devId} else sys
    setSlot sys i clearedSlot
  else sys

/-! ### Histories -/

inductive PlugOp where
  | register (address endpointAddr intervalMs : UInt8) (wMaxPacketSize : UInt16)
  | unregister (devIndex : ℤ)

def plugStep (sys : KeyboardSystem) : PlugOp → KeyboardSystem
  | .register address endpointAddr intervalMs wMaxPacketSize =>
    (keyboardRegisterUsbBootKeyboard sys address endpointAddr intervalMs wMaxPacketSize).2
  | .unregister devIndex => keyboardUsbUnregister sys devIndex

def plugRun (sys : KeyboardSystem) (ops : List PlugOp) : KeyboardSystem := ops.foldl plugStep sys

/- After `kbd_subsystem_init`, with no USB keyboard. -/
def noKeyboards (s : Console) : KeyboardSystem :=
  ⟨fun _ => clearedSlot, kbdSubsystemInit kbdStatic, s⟩

structure UniqueIds (sys : KeyboardSystem) : Prop where
  ne_ps2 : ∀ i, initialised (sys.usb i) = true → (sys.usb i).devId ≠ 0
  distinct : ∀ i j, initialised (sys.usb i) = true → initialised (sys.usb j) = true →
    (sys.usb i).devId = (sys.usb j).devId → i = j

/- The ids are unique at every point, and no unregistration touches the PS/2
keyboard. -/
structure IdsStayUnique (sys : KeyboardSystem) (ops : List PlugOp) : Prop where
  unique : ∀ before rest, ops = before ++ rest → UniqueIds (plugRun sys before)
  ps2 : ∀ before devIndex rest, ops = before ++ .unregister devIndex :: rest →
    (keyboardUsbUnregister (plugRun sys before) devIndex).kbd.ps2Registered =
      (plugRun sys before).kbd.ps2Registered

/- Some slot is not in use. -/
def hasFreeSlot (sys : KeyboardSystem) : Bool :=
  (List.finRange maxUsbKeyboards).any fun i => initialised (sys.usb i) = false

/- How many registrations of a history find a free slot. -/
def registrations : KeyboardSystem → List PlugOp → ℕ
  | _, [] => 0
  | sys, .register a e i w :: ops =>
    (if hasFreeSlot sys then 1 else 0) + registrations (plugStep sys (.register a e i w)) ops
  | sys, .unregister i :: ops => registrations (plugStep sys (.unregister i)) ops

/-! ### One call -/

theorem initialised_eq_false (d : UsbKeyboardDevice) :
    initialised d = false ↔ d.status &&& kbStatInit = 0 := by
  simp [initialised]

theorem initialised_of_status {d : UsbKeyboardDevice}
    (h : d.status = kbStatInit ||| kbStatEnabled) : initialised d = true := by
  simp only [initialised, h]
  decide

theorem register_cases (sys : KeyboardSystem) (a e i : UInt8) (w : UInt16) :
    (hasFreeSlot sys = true ∧ ∃ j d, initialised d = true ∧ d.devId = sys.kbd.usbNextId ∧
      plugStep sys (.register a e i w) =
        setSlot {sys with kbd := {sys.kbd with usbNextId := sys.kbd.usbNextId + 1}} j d) ∨
    (hasFreeSlot sys = false ∧ plugStep sys (.register a e i w) = sys) := by
  have hpred : (fun i => decide ((sys.usb i).status &&& kbStatInit = 0)) =
      fun i => decide (initialised (sys.usb i) = false) := by
    funext i
    simp only [initialised_eq_false]
  unfold plugStep keyboardRegisterUsbBootKeyboard hasFreeSlot
  rw [hpred]
  cases hf : (List.finRange maxUsbKeyboards).find? fun i => initialised (sys.usb i) = false with
  | some j =>
    have hmem := List.mem_of_find?_eq_some hf
    have hfree := List.find?_some hf
    exact Or.inl ⟨List.any_eq_true.mpr ⟨j, hmem, hfree⟩, j, _, initialised_of_status rfl, rfl, rfl⟩
  | none =>
    refine Or.inr ⟨?_, rfl⟩
    rw [List.find?_eq_none] at hf
    exact List.any_eq_false.mpr hf

theorem unregister_cases (sys : KeyboardSystem) (devIndex : ℤ) :
    keyboardUsbUnregister sys devIndex = sys ∨
    ∃ i kbd, keyboardUsbUnregister sys devIndex = setSlot {sys with kbd} i clearedSlot ∧
      (kbd = sys.kbd ∨ initialised (sys.usb i) = true ∧ (sys.usb i).devId = 0 ∧
        kbd = {sys.kbd with ps2Registered := false}) := by
  unfold keyboardUsbUnregister
  by_cases h : 0 ≤ devIndex ∧ devIndex < maxUsbKeyboards
  · rw [dif_pos h]
    refine Or.inr ⟨⟨devIndex.toNat, slot_lt h⟩, ?_⟩
    generalize (⟨devIndex.toNat, _⟩ : Fin maxUsbKeyboards) = i
    dsimp only
    cases hinit : initialised (sys.usb i) with
    | false => exact ⟨sys.kbd, rfl, Or.inl rfl⟩
    | true =>
      refine ⟨_, rfl, ?_⟩
      unfold kbdUnregisterDevice
      split
      next hz => exact Or.inr ⟨rfl, hz, rfl⟩
      next => exact Or.inl rfl
  · rw [dif_neg h]
    exact Or.inl rfl

/-! ### Whole histories -/

/- After `n` registrations the counter is at `n + 1`, and the ids in use are
among the first `n`. -/
structure Counted (n : ℕ) (sys : KeyboardSystem) : Prop where
  next : sys.kbd.usbNextId = UInt8.ofNat (n + 1)
  range : ∀ i, initialised (sys.usb i) = true →
    1 ≤ (sys.usb i).devId.toNat ∧ (sys.usb i).devId.toNat ≤ n
  distinct : ∀ i j, initialised (sys.usb i) = true → initialised (sys.usb j) = true →
    (sys.usb i).devId = (sys.usb j).devId → i = j

theorem Counted.unique {n : ℕ} {sys : KeyboardSystem} (h : Counted n sys) : UniqueIds sys := by
  refine ⟨?_, h.distinct⟩
  intro i hi hz
  have hrange := (h.range i hi).1
  rw [hz] at hrange
  exact absurd hrange (by decide)

theorem succ_id (n : ℕ) : UInt8.ofNat (n + 1) + 1 = UInt8.ofNat (n + 1 + 1) := by
  rw [UInt8.ofNat_add (n + 1) 1]
  rfl

theorem Counted.register {n : ℕ} {sys : KeyboardSystem} (h : Counted n sys) (hn : n < 255)
    {d : UsbKeyboardDevice} (hid : d.devId = sys.kbd.usbNextId) (j : Fin maxUsbKeyboards) :
    Counted (n + 1)
      (setSlot {sys with kbd := {sys.kbd with usbNextId := sys.kbd.usbNextId + 1}} j d) := by
  have hd : d.devId.toNat = n + 1 := by
    rw [hid, h.next, UInt8.toNat_ofNat']
    omega
  have hslot : ∀ i, initialised (Function.update sys.usb j d i) = true →
      i = j ∨ i ≠ j ∧ initialised (sys.usb i) = true := by
    intro i hi
    by_cases hij : i = j
    · exact Or.inl hij
    · rw [Function.update_of_ne hij] at hi
      exact Or.inr ⟨hij, hi⟩
  refine ⟨?_, ?_, ?_⟩
  · show sys.kbd.usbNextId + 1 = UInt8.ofNat (n + 1 + 1)
    rw [h.next, succ_id]
  · intro i hi
    show 1 ≤ (Function.update sys.usb j d i).devId.toNat ∧ _
    obtain rfl | ⟨hij, hi'⟩ := hslot i hi
    · simp only [setSlot, Function.update_self, hd]
      omega
    · have hr := h.range i hi'
      simp only [setSlot, Function.update_of_ne hij]
      omega
  · intro i i' hi hi' he
    have hne : ∀ i, initialised (sys.usb i) = true → (sys.usb i).devId ≠ d.devId := by
      intro i hi he
      have hr := (h.range i hi).2
      rw [he] at hr
      omega
    obtain rfl | ⟨hij, hu⟩ := hslot i hi <;> obtain rfl | ⟨hij', hu'⟩ := hslot i' hi'
    · rfl
    · simp only [setSlot, Function.update_self, Function.update_of_ne hij'] at he
      exact absurd he.symm (hne i' hu')
    · simp only [setSlot, Function.update_self, Function.update_of_ne hij] at he
      exact absurd he (hne i hu)
    · simp only [setSlot, Function.update_of_ne hij, Function.update_of_ne hij'] at he
      exact h.distinct i i' hu hu' he

theorem Counted.unregister {n : ℕ} {sys : KeyboardSystem} (h : Counted n sys) (devIndex : ℤ) :
    Counted n (keyboardUsbUnregister sys devIndex) ∧
      (keyboardUsbUnregister sys devIndex).kbd = sys.kbd := by
  obtain he | ⟨i, kbd, he, hkbd⟩ := unregister_cases sys devIndex
  · rw [he]
    exact ⟨h, rfl⟩
  · -- no slot in use has id 0
    have hsame : kbd = sys.kbd := by
      obtain hk | ⟨hi, hz, -⟩ := hkbd
      · exact hk
      · exact absurd hz (h.unique.ne_ps2 i hi)
    subst hsame
    rw [he]
    have hslot : ∀ j, initialised (Function.update sys.usb i clearedSlot j) = true →
        initialised (sys.usb j) = true ∧ Function.update sys.usb i clearedSlot j = sys.usb j := by
      intro j hj
      by_cases hij : j = i
      · subst hij
        rw [Function.update_self] at hj
        exact absurd hj (by decide)
      · rw [Function.update_of_ne hij] at hj ⊢
        exact ⟨hj, rfl⟩
    refine ⟨⟨h.next, ?_, ?_⟩, rfl⟩
    · intro j hj
      obtain ⟨hj', hd⟩ := hslot j hj
      simp only [setSlot, hd]
      exact h.range j hj'
    · intro j j' hj hj' hid
      obtain ⟨hu, hd⟩ := hslot j hj
      obtain ⟨hu', hd'⟩ := hslot j' hj'
      simp only [setSlot, hd, hd'] at hid
      exact h.distinct j j' hu hu' hid

theorem idsStayUnique_cons {sys : KeyboardSystem} {op : PlugOp} {ops : List PlugOp}
    (hnow : UniqueIds sys)
    (hps2 : ∀ devIndex, op = .unregister devIndex →
      (keyboardUsbUnregister sys devIndex).kbd.ps2Registered = sys.kbd.ps2Registered)
    (hrest : IdsStayUnique (plugStep sys op) ops) : IdsStayUnique sys (op :: ops) := by
  refine ⟨?_, ?_⟩
  · intro before rest hsplit
    cases before with
    | nil => exact hnow
    | cons op' before =>
      rw [List.cons_append, List.cons.injEq] at hsplit
      obtain ⟨rfl, hsplit⟩ := hsplit
      exact hrest.unique before rest hsplit
  · intro before devIndex rest hsplit
    cases before with
    | nil =>
      rw [List.nil_append, List.cons.injEq] at hsplit
      exact hps2 devIndex hsplit.1
    | cons op' before =>
      rw [List.cons_append, List.cons.injEq] at hsplit
      obtain ⟨rfl, hsplit⟩ := hsplit
      exact hrest.ps2 before devIndex rest hsplit

theorem Counted.run {n : ℕ} {sys : KeyboardSystem} (h : Counted n sys) {ops : List PlugOp}
    (hn : n + registrations sys ops ≤ 255) : IdsStayUnique sys ops := by
  induction ops generalizing n sys with
  | nil =>
    refine ⟨?_, ?_⟩
    · intro before rest hsplit
      obtain ⟨rfl, -⟩ := List.append_eq_nil_iff.mp hsplit.symm
      exact h.unique
    · intro before devIndex rest hsplit
      exact absurd hsplit (by simp)
  | cons op ops ih =>
    cases op with
    | register a e i w =>
      refine idsStayUnique_cons h.unique (fun _ hop => by cases hop) ?_
      rw [registrations] at hn
      obtain ⟨hfree, j, d, -, hid, hstep⟩ | ⟨hfull, hstep⟩ := register_cases sys a e i w
      · rw [if_pos hfree] at hn
        rw [hstep] at hn ⊢
        exact ih (h.register (by omega) hid j) (by omega)
      · rw [if_neg (ne_true_of_eq_false hfull)] at hn
        rw [hstep] at hn ⊢
        exact ih h (by omega)
    | unregister devIndex =>
      rw [registrations] at hn
      refine idsStayUnique_cons h.unique ?_ (ih (h.unregister devIndex).1 hn)
      intro i hop
      cases hop
      rw [(h.unregister devIndex).2]

theorem registrations_cons (sys : KeyboardSystem) (op : PlugOp) (ops : List PlugOp) :
    registrations sys (op :: ops) = registrations sys [op] + registrations (plugStep sys op) ops := by
  cases op with
  | register a e i w => rfl
  | unregister devIndex => exact (Nat.zero_add _).symm

section Next
variable {n : ℕ} {sys : KeyboardSystem} (hnext : sys.kbd.usbNextId = UInt8.ofNat (n + 1))
include hnext

/- The counter follows the registrations. -/
theorem plugStep_next (op : PlugOp) :
    (plugStep sys op).kbd.usbNextId = UInt8.ofNat (n + registrations sys [op] + 1) := by
  cases op with
  | register a e i w =>
    rw [registrations, registrations]
    obtain ⟨hfree, j, d, -, -, hstep⟩ | ⟨hfull, hstep⟩ := register_cases sys a e i w
    · rw [hstep, if_pos hfree]
      show sys.kbd.usbNextId + 1 = _
      rw [hnext, succ_id]
    · rw [hstep, hnext, if_neg (ne_true_of_eq_false hfull)]
  | unregister devIndex =>
    show (keyboardUsbUnregister sys devIndex).kbd.usbNextId = UInt8.ofNat (n + 0 + 1)
    obtain he | ⟨i, kbd, he, rfl | ⟨-, -, rfl⟩⟩ := unregister_cases sys devIndex
    · rw [he, hnext]
    · rw [he]
      exact hnext
    · rw [he]
      exact hnext

/- The registration after the 255th gives out id 0. -/
theorem not_unique_of_wrap (hn : n ≤ 255) {op : PlugOp} (hwrap : 255 < n + registrations sys [op]) :
    ¬ UniqueIds (plugStep sys op) := by
  cases op with
  | register a e i w =>
    rw [registrations, registrations] at hwrap
    obtain ⟨hfree, j, d, hd, hid, hstep⟩ | ⟨hfull, -⟩ := register_cases sys a e i w
    · rw [if_pos hfree] at hwrap
      obtain rfl : n = 255 := by omega
      intro hunique
      have hzero := hunique.ne_ps2 j
      rw [hstep] at hzero
      simp only [setSlot, Function.update_self] at hzero
      exact hzero hd (hid.trans hnext)
    · rw [if_neg (ne_true_of_eq_false hfull)] at hwrap
      omega
  | unregister devIndex =>
    rw [registrations, registrations] at hwrap
    omega

end Next

theorem not_unique_of_many {n : ℕ} {sys : KeyboardSystem}
    (hnext : sys.kbd.usbNextId = UInt8.ofNat (n + 1)) (hn : n ≤ 255) {ops : List PlugOp}
    (hmany : 255 < n + registrations sys ops) :
    ∃ before rest, ops = before ++ rest ∧ ¬ UniqueIds (plugRun sys before) := by
  induction ops generalizing n sys with
  | nil =>
    rw [registrations] at hmany
    omega
  | cons op ops ih =>
    rw [registrations_cons] at hmany
    by_cases hwrap : 255 < n + registrations sys [op]
    · exact ⟨[op], ops, rfl, not_unique_of_wrap hnext hn hwrap⟩
    · obtain ⟨before, rest, rfl, hnot⟩ := ih (plugStep_next hnext op) (by omega) (by omega)
      exact ⟨op :: before, rest, rfl, hnot⟩

/-- From `kbd_subsystem_init` on, over every history of plugging and
unplugging, the ids stay unique and apart from the PS/2 keyboard's exactly when
at most 255 registrations find a slot. -/
theorem idsStayUnique_iff (s : Console) (ops : List PlugOp) :
    IdsStayUnique (noKeyboards s) ops ↔ registrations (noKeyboards s) ops ≤ 255 := by
  have hstart : Counted 0 (noKeyboards s) := by
    have hnone : ∀ i, initialised ((noKeyboards s).usb i) ≠ true := fun i => by
      show initialised clearedSlot ≠ true
      decide
    exact ⟨rfl, fun i hi => absurd hi (hnone i), fun i _ hi => absurd hi (hnone i)⟩
  constructor
  · intro h
    by_contra hmany
    obtain ⟨before, rest, hsplit, hnot⟩ := not_unique_of_many hstart.next (by decide)
      (by omega : 255 < 0 + registrations (noKeyboards s) ops)
    exact hnot (h.unique before rest hsplit)
  · intro h
    exact hstart.run (by omega)

/- One keyboard plugged in and out, again and again. -/
def plugCycles (n : ℕ) : List PlugOp :=
  (List.replicate n [PlugOp.register 1 0x81 10 8, PlugOp.unregister 0]).flatten

/- The 256th plugging gives the keyboard id 0. -/
theorem plugCycles_reuse_ps2_id : ¬ IdsStayUnique (noKeyboards biosConsole) (plugCycles 256) := by
  intro h
  have hmany : 255 < 0 + registrations (noKeyboards biosConsole) (plugCycles 256) := by
    decide +kernel
  obtain ⟨before, rest, hsplit, hnot⟩ := not_unique_of_many rfl (by decide) hmany
  exact hnot (h.unique before rest hsplit)

end CasseOS.Keyboard
