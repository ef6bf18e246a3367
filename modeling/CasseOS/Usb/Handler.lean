import CasseOS.Keyboard.HotPlug
import CasseOS.Lib.Latch
import CasseOS.Usb.Service

/-! # The interrupt handler and the controller (`drivers/usb/uhci/uhci_isr.c`)

`uhci_irq_top` reads `USBSTS`, writes back what it read and visits the pipes;
the controller retires TDs and sets `USBINT` or `USBERRINT` at any time in
between. -/

namespace CasseOS.Usb
open Keyboard Screen

/- Which bit of `USBSTS` the controller sets for a TD it has retired. -/
inductive StatusCause where
  | usbint
  | usberrint

def StatusCause.bits : StatusCause → UInt16
  | usbint => usbstsUsbint
  | usberrint => usbstsUsberrint

/- Where `uhci_irq_top` stands between two steps. -/
inductive HandlerPhase where
  | idle
  /-- It has read `USBSTS` (`uhci_isr.c:28`). -/
  | statusRead (st : UInt16)
  /-- It has acknowledged, and these pipes are still to be visited. -/
  | servicing (pipes : List (Fin uhciMaxKbdPipes))

structure IrqSystem where
  bus : KbdBus
  /-- The register `USBSTS`. -/
  usbsts : UInt16
  /-- The TDs the controller has retired without having set a bit for them yet. -/
  owed : List (Fin uhciMaxKbdPipes × StatusCause)
  phase : HandlerPhase

/- The pipes `uhci_irq_top` visits for a status word: `uhci_kbd_service` is called
once for each of the two bits (`uhci_isr.c:37-44`). -/
def visits (st : UInt16) : List (Fin uhciMaxKbdPipes) :=
  (if st &&& usbstsUsbint ≠ 0 then List.finRange uhciMaxKbdPipes else []) ++
    if st &&& usbstsUsberrint ≠ 0 then List.finRange uhciMaxKbdPipes else []

/-- One step of `uhci_irq_top` (`uhci_isr.c:22-58`): the read of `USBSTS`, the
write that clears the bits seen, or the visit of one pipe. -/
def handlerStep (t : TextMode) (io : UInt16) (s : IrqSystem) : IrqSystem :=
  match s.phase with
  | .idle => {s with phase := .statusRead s.usbsts}
  | .statusRead st =>
    if st = 0 then {s with phase := .idle}
    else {s with
      bus := acknowledge io st s.bus
      usbsts := s.usbsts &&& ~~~st
      phase := .servicing (visits st)}
  | .servicing [] => {s with phase := .idle}
  | .servicing (i :: pipes) => {s with bus := servicePipe t s.bus i, phase := .servicing pipes}

/- The TD of a pipe that is in use is active. -/
def tdWaits (bus : KbdBus) (i : Fin uhciMaxKbdPipes) : Bool :=
  match tdOf bus i with
  | some td => td.controlStatus &&& tdActive ≠ 0
  | none => false

/- The controller retires the TD of a pipe; the bit is to follow. -/
def retire (i : Fin uhciMaxKbdPipes) (cause : StatusCause) (bus : KbdBus) (s : IrqSystem) : IrqSystem :=
  if tdWaits s.bus i && !tdWaits bus i then {s with bus, owed := (i, cause) :: s.owed} else s

/- The bit for the `k`-th TD that waits for one. -/
def setStatusFor (k : ℕ) (s : IrqSystem) : IrqSystem :=
  match s.owed[k]? with
  | some x => {s with usbsts := s.usbsts ||| x.2.bits, owed := s.owed.eraseIdx k}
  | none => s

inductive IrqAction where
  | openPipe (r : OpenRequest)
  | data (i : Fin uhciMaxKbdPipes) (report : Report) (status : UInt32) (cause : StatusCause)
  | fail (i : Fin uhciMaxKbdPipes) (status : UInt32) (cause : StatusCause)
  | setStatus (k : ℕ)
  /-- Other causes, such as a resume or an error of the controller. -/
  | raise (bits : UInt16)
  | handler

def irqStep (t : TextMode) (io : UInt16) (s : IrqSystem) : IrqAction → IrqSystem
  | .openPipe r =>
    match s.phase with
    | .idle => {s with bus := openOn r s.bus}
    | _ => s
  | .data i report status cause => retire i cause (dataCompletion i report status s.bus) s
  | .fail i status cause => retire i cause (failedCompletion i status s.bus) s
  | .setStatus k => setStatusFor k s
  | .raise bits => {s with usbsts := s.usbsts ||| bits}
  | .handler => handlerStep t io s

def irqRun (t : TextMode) (io : UInt16) (s : IrqSystem) (actions : List IrqAction) : IrqSystem :=
  actions.foldl (irqStep t io) s

/- No pipe is open and the handler does not run; `USBSTS` may hold anything. -/
def irqStart (heap : Addr → Option Object) (keyboards : KeyboardSystem) (usbsts : UInt16) : IrqSystem :=
  ⟨idleBus heap keyboards, usbsts, [], .idle⟩

/-! ### The status word -/

/- `USBINT` or `USBERRINT` is set. -/
def statusSet (st : UInt16) : Bool := st &&& usbstsUsbint ≠ 0 ∨ st &&& usbstsUsberrint ≠ 0

theorem and_twoPow_ne_zero (x : UInt16) {m : UInt16} {k : ℕ} (hm : m.toBitVec = BitVec.twoPow 16 k)
    (hk : k < 16) : x &&& m ≠ 0 ↔ x.toBitVec.getLsbD k = true := by
  rw [ne_eq, ← UInt16.toBitVec_inj, UInt16.toBitVec_and, hm, BitVec.and_twoPow]
  cases x.toBitVec.getLsbD k with
  | false => simp
  | true =>
    simp only [if_true, iff_true]
    intro hzero
    have hbit := congrArg (fun b : BitVec 16 => b.getLsbD k) hzero
    simp [hk] at hbit

theorem statusSet_iff (st : UInt16) :
    statusSet st = true ↔ st.toBitVec.getLsbD 0 = true ∨ st.toBitVec.getLsbD 1 = true := by
  rw [statusSet, decide_eq_true_eq]
  exact or_congr (and_twoPow_ne_zero st rfl (by decide)) (and_twoPow_ne_zero st rfl (by decide))

theorem statusSet_or {x : UInt16} (h : statusSet x = true) (y : UInt16) :
    statusSet (x ||| y) = true := by
  rw [statusSet_iff] at h ⊢
  simp only [UInt16.toBitVec_or, BitVec.getLsbD_or, Bool.or_eq_true]
  exact h.imp Or.inl Or.inl

theorem statusSet_cause (x : UInt16) (cause : StatusCause) : statusSet (x ||| cause.bits) = true := by
  rw [statusSet_iff]
  simp only [UInt16.toBitVec_or, BitVec.getLsbD_or, Bool.or_eq_true]
  cases cause with
  | usbint => exact Or.inl (Or.inr (by decide))
  | usberrint => exact Or.inr (Or.inr (by decide))

/- Clearing bits that are not set loses none of the two. -/
theorem statusSet_clear {st : UInt16} (h : statusSet st = false) (x : UInt16) :
    statusSet (x &&& ~~~st) = statusSet x := by
  have hbits : ¬(st.toBitVec.getLsbD 0 = true ∨ st.toBitVec.getLsbD 1 = true) := by
    rw [← statusSet_iff, h]
    decide
  rw [not_or, Bool.not_eq_true, Bool.not_eq_true] at hbits
  refine Bool.eq_iff_iff.mpr ?_
  rw [statusSet_iff, statusSet_iff, UInt16.toBitVec_and, UInt16.toBitVec_not, BitVec.getLsbD_and,
    BitVec.getLsbD_and, BitVec.getLsbD_not, BitVec.getLsbD_not, hbits.1, hbits.2]
  simp only [Bool.not_false, Bool.and_true, decide_true, show 0 < 16 from by decide,
    show 1 < 16 from by decide]

theorem mem_visits {st : UInt16} (h : statusSet st = true) (i : Fin uhciMaxKbdPipes) : i ∈ visits st := by
  rw [statusSet, decide_eq_true_eq] at h
  rw [visits, List.mem_append]
  refine h.imp (fun hint => ?_) fun herr => ?_
  · rw [if_pos hint]
    exact List.mem_finRange i
  · rw [if_pos herr]
    exact List.mem_finRange i

/-! ### The handler left to itself -/

theorem handlerStep_servicing (t : TextMode) (io : UInt16) (pipes : List (Fin uhciMaxKbdPipes))
    (s : IrqSystem) (h : s.phase = .servicing pipes) :
    (handlerStep t io)^[pipes.length + 1] s =
      {s with bus := pipes.foldl (servicePipe t) s.bus, phase := .idle} := by
  induction pipes generalizing s with
  | nil =>
    rw [List.length_nil, Nat.zero_add, Function.iterate_one, handlerStep, h]
    rfl
  | cons i pipes ih =>
    have hstep : handlerStep t io s =
        {s with bus := servicePipe t s.bus i, phase := .servicing pipes} := by
      rw [handlerStep, h]
    rw [List.length_cons, Function.iterate_succ_apply, hstep, ih _ rfl]
    rfl

/- Without the controller in between its steps make up `uhci_irq_top`. -/
theorem handlerStep_uninterrupted (t : TextMode) (io : UInt16) (s : IrqSystem) (h : s.phase = .idle) :
    ∃ k, (handlerStep t io)^[k] s = {s with
      bus := uhciIrqTop t io s.usbsts s.bus
      usbsts := s.usbsts &&& ~~~s.usbsts} := by
  have hread : handlerStep t io s = {s with phase := .statusRead s.usbsts} := by
    rw [handlerStep, h]
  by_cases hzero : s.usbsts = 0
  · refine ⟨2, ?_⟩
    rw [Function.iterate_succ_apply, Function.iterate_one, hread, handlerStep, hzero, uhciIrqTop,
      if_pos rfl]
    obtain ⟨bus, usbsts, owed, phase⟩ := s
    cases h
    cases hzero
    rfl
  · refine ⟨(visits s.usbsts).length + 1 + 1 + 1, ?_⟩
    have hack : handlerStep t io {s with phase := .statusRead s.usbsts} = {s with
        bus := acknowledge io s.usbsts s.bus
        usbsts := s.usbsts &&& ~~~s.usbsts
        phase := .servicing (visits s.usbsts)} := by
      rw [handlerStep]
      exact if_neg hzero
    rw [Function.iterate_succ_apply, hread, Function.iterate_succ_apply, hack,
      handlerStep_servicing t io (visits s.usbsts) _ rfl, uhciIrqTop, if_neg hzero, visits,
      List.foldl_append, ← h]
    dsimp only
    congr 1
    split <;> split <;> rfl

/-! ### The system as a latched interrupt -/

/- The TD of a pipe that is in use is no longer active. -/
def Done (bus : KbdBus) (i : Fin uhciMaxKbdPipes) : Prop :=
  ∃ td, tdOf bus i = some td ∧ td.controlStatus &&& tdActive = 0

def phaseOf : HandlerPhase → Latch.Phase (Fin uhciMaxKbdPipes)
  | .idle => .idle
  | .statusRead st => .seen (statusSet st)
  | .servicing pipes => .visiting pipes

def latchOf (s : IrqSystem) : Latch.State (Fin uhciMaxKbdPipes) :=
  ⟨statusSet s.usbsts, s.owed.map Prod.fst, {i | Done s.bus i}, phaseOf s.phase⟩

section Simulation
variable {bus bus₁ : KbdBus} {i j : Fin uhciMaxKbdPipes} {s : IrqSystem}

theorem armed_iff : Armed bus i ↔ ¬Done bus i := by
  constructor
  · rintro harmed ⟨td, htd, hdone⟩
    exact harmed td htd hdone
  · intro h td htd hdone
    exact h ⟨td, htd, hdone⟩

theorem Done.congr (h : tdOf bus₁ i = tdOf bus i) : Done bus₁ i ↔ Done bus i := by
  unfold Done
  rw [h]

/- Blocks and pipes that are kept have their TD. -/
theorem BusInv.tdOf_keeps (h : BusInv bus) (hk : Keeps bus.uhci bus₁.uhci)
    (hp : bus₁.uhci.pipes i = bus.uhci.pipes i) : tdOf bus₁ i = tdOf bus i := by
  unfold tdOf
  rw [hp]
  cases hi : (bus.uhci.pipes i).inUse with
  | false => rfl
  | true =>
    obtain ⟨td, bytes, hok⟩ := h.pipe i hi
    rw [hk _ _ hok.tdAt, hok.tdAt]

/- A pipe that is opened has an active TD. -/
theorem openOn_done (h : BusInv bus) (r : OpenRequest) (hdone : Done (openOn r bus) j) : Done bus j := by
  unfold openOn uhciKbdOpenInterruptIn at hdone
  cases hfree : freePipe bus.uhci with
  | none =>
    rw [hfree] at hdone
    exact hdone
  | some i =>
    rw [hfree] at hdone
    dsimp only at hdone
    have hi := freePipe_inUse hfree
    obtain ⟨st₁, he, hfail⟩ | ⟨-, st₁, he, hopen⟩ := openPipe_cases r.world i
      (newPipe r.ioBase r.devAddr r.endpointAddress r.intervalFrames r.keyboardDevIndex) bus.uhci
      rfl rfl
    · rw [he] at hdone
      by_cases hji : j = i
      · subst hji
        obtain ⟨td, htd, -⟩ := hdone
        have hused : (st₁.pipes j).inUse = true := inUse_of_tdOf htd
        rw [hfail.pipes, Function.update_self] at hused
        cases hused
      · have hpipe : st₁.pipes j = bus.uhci.pipes j := by
          rw [hfail.pipes, Function.update_of_ne hji]
        exact (Done.congr (h.tdOf_keeps hfail.keeps hpipe)).mp hdone
    · have harmed := openPipe_armed _ _ _ _ _ he
      rw [he] at hdone
      dsimp only at hdone
      rw [if_neg (by omega)] at hdone
      by_cases hji : j = i
      · subst hji
        obtain ⟨td, htd, hdone⟩ := hdone
        simp only [tdOf, hopen.pipe_self, openedPipe, newPipe, if_true, harmed, Option.some.injEq] at htd
        rw [← htd] at hdone
        exact absurd hdone tdArmed_active
      · exact (Done.congr (h.tdOf_keeps hopen.keeps (hopen.pipe_of_ne hji))).mp hdone

theorem servicePipe_done (t : TextMode) (h : BusInv bus) (i : Fin uhciMaxKbdPipes) :
    {j | Done (servicePipe t bus i) j} ⊆ {j | Done bus j} \ {i} := by
  obtain ⟨-, hself, hkeep⟩ := servicePipe_ok t h i
  intro j hj
  refine ⟨?_, ?_⟩
  · by_contra hnot
    exact armed_iff.mp (hkeep j (armed_iff.mpr hnot)) hj
  · rintro rfl
    exact armed_iff.mp hself hj

theorem handlerStep_latch (t : TextMode) (io : UInt16) (h : BusInv s.bus) :
    BusInv (handlerStep t io s).bus ∧ Latch.Step (latchOf s) (latchOf (handlerStep t io s)) := by
  obtain ⟨bus, usbsts, owed, phase⟩ := s
  cases phase with
  | idle => exact ⟨h, .look _ rfl⟩
  | statusRead st =>
    by_cases hzero : st = 0
    · subst hzero
      exact ⟨h, .ignore _ rfl⟩
    · have hstep : handlerStep t io ⟨bus, usbsts, owed, .statusRead st⟩ =
          ⟨acknowledge io st bus, usbsts &&& ~~~st, owed, .servicing (visits st)⟩ := if_neg hzero
      rw [hstep]
      exact ⟨acknowledge_ok h io st, .acknowledge _ rfl mem_visits fun hno => statusSet_clear hno usbsts⟩
  | servicing pipes =>
    cases pipes with
    | nil => exact ⟨h, .leave _ rfl⟩
    | cons i pipes => exact ⟨(servicePipe_ok t h i).1, .visit _ rfl (servicePipe_done t h i)⟩

/- The controller retires the TD of one pipe. -/
theorem retire_latch (h : BusInv s.bus) (hinv : BusInv bus)
    (hother : ∀ j, j ≠ i → tdOf bus j = tdOf s.bus j) (cause : StatusCause) :
    BusInv (retire i cause bus s).bus ∧
      Relation.ReflTransGen Latch.Step (latchOf s) (latchOf (retire i cause bus s)) := by
  unfold retire
  split
  · refine ⟨hinv, .single (.finish _ ?_)⟩
    intro j hj
    by_cases hji : j = i
    · exact Set.mem_insert_iff.mpr (Or.inl hji)
    · exact Set.mem_insert_of_mem i ((Done.congr (hother j hji)).mp hj)
  · exact ⟨h, .refl⟩

theorem setStatusFor_latch (h : BusInv s.bus) (k : ℕ) :
    BusInv (setStatusFor k s).bus ∧
      Relation.ReflTransGen Latch.Step (latchOf s) (latchOf (setStatusFor k s)) := by
  unfold setStatusFor
  cases hk : s.owed[k]? with
  | none => exact ⟨h, .refl⟩
  | some x =>
    obtain ⟨hlt, rfl⟩ := List.getElem?_eq_some_iff.mp hk
    have howed : s.owed.map Prod.fst =
        (s.owed.take k).map Prod.fst ++ s.owed[k].1 :: (s.owed.drop (k + 1)).map Prod.fst := by
      rw [← List.map_cons, ← List.map_append, ← List.drop_eq_getElem_cons hlt, List.take_append_drop]
    have hstep := Latch.Step.raise (latchOf s) howed
    rw [← List.map_append, ← List.eraseIdx_eq_take_drop_succ, ← statusSet_cause s.usbsts s.owed[k].2]
      at hstep
    exact ⟨h, .single hstep⟩

theorem irqStep_latch (t : TextMode) (io : UInt16) (h : BusInv s.bus) (a : IrqAction) :
    BusInv (irqStep t io s a).bus ∧
      Relation.ReflTransGen Latch.Step (latchOf s) (latchOf (irqStep t io s a)) := by
  cases a with
  | openPipe r =>
    obtain ⟨bus, usbsts, owed, phase⟩ := s
    cases phase with
    | idle => exact ⟨openOn_ok h r, .single (.other _ id fun j hj => openOn_done h r hj)⟩
    | statusRead st => exact ⟨h, .refl⟩
    | servicing pipes => exact ⟨h, .refl⟩
  | data i report status cause =>
    refine retire_latch h (dataCompletion_ok h i report status) ?_ cause
    intro j hj
    obtain hsame | ⟨hi, ht, -⟩ := dataCompletion_cases h i report status
    · rw [hsame]
    · exact h.tdOf_other hi ht hj
  | fail i status cause =>
    refine retire_latch h (failedCompletion_ok h i status) ?_ cause
    intro j hj
    obtain hsame | ⟨hi, ht, -⟩ := failedCompletion_cases h i status
    · rw [hsame]
    · exact h.tdOf_other hi ht hj
  | setStatus k => exact setStatusFor_latch h k
  | raise bits => exact ⟨h, .single (.other _ (fun hset => statusSet_or hset bits) subset_rfl)⟩
  | handler =>
    obtain ⟨hinv, hstep⟩ := handlerStep_latch t io h
    exact ⟨hinv, .single hstep⟩

theorem irqRun_latch (t : TextMode) (io : UInt16) (actions : List IrqAction) (h : BusInv s.bus) :
    BusInv (irqRun t io s actions).bus ∧
      Relation.ReflTransGen Latch.Step (latchOf s) (latchOf (irqRun t io s actions)) := by
  induction actions generalizing s with
  | nil => exact ⟨h, .refl⟩
  | cons a actions ih =>
    obtain ⟨hinv, hstep⟩ := irqStep_latch t io h a
    obtain ⟨hinv', hsteps⟩ := ih hinv
    exact ⟨hinv', hstep.trans hsteps⟩

end Simulation

/-- In every order of the handler's and the controller's steps: while the handler
does not run, a pipe in use has an active TD, or `USBINT` or `USBERRINT` is set,
or the controller still has to set one of them for it. -/
theorem no_completion_forgotten (t : TextMode) (io : UInt16) (heap : Addr → Option Object)
    (keyboards : KeyboardSystem) (usbsts : UInt16) (actions : List IrqAction) :
    let s := irqRun t io (irqStart heap keyboards usbsts) actions
    s.phase = .idle → ∀ i, (s.bus.uhci.pipes i).inUse = true →
      ∃ td, s.bus.uhci.heap (s.bus.uhci.pipes i).td = some (.td td) ∧
        (td.controlStatus &&& tdActive = 0 →
          (s.usbsts &&& usbstsUsbint ≠ 0 ∨ s.usbsts &&& usbstsUsberrint ≠ 0) ∨
            ∃ cause, (i, cause) ∈ s.owed) := by
  intro s hidle i hi
  have hstart : BusInv (irqStart heap keyboards usbsts).bus := busRun_ok t heap keyboards []
  obtain ⟨hinv, hsteps⟩ := irqRun_latch t io actions hstart
  have hnone : Latch.Inv (latchOf (irqStart heap keyboards usbsts)) := by
    rintro j ⟨td, htd, -⟩
    cases htd
  obtain ⟨td, bytes, hok⟩ := hinv.pipe i hi
  refine ⟨td, hok.tdAt, fun hdone => ?_⟩
  have hphase : (latchOf s).phase = .idle := congrArg phaseOf hidle
  obtain hraised | howed := (Latch.inv_of_steps hsteps hnone).idle hphase ⟨td, hok.tdOf hi, hdone⟩
  · exact Or.inl (of_decide_eq_true hraised)
  · obtain ⟨x, hx, rfl⟩ := List.mem_map.mp howed
    exact Or.inr ⟨x.2, hx⟩

/- A keyboard has sent a report, and its bit is not set yet. -/
theorem no_completion_forgotten_report :
    let s := irqRun vgaText 0xC000 (irqStart (fun _ => none) (noKeyboards biosConsole) 0)
      [.openPipe ⟨⟨0x2010, 0x2020, 0x2030, 0⟩, 0xC000, 1, 0x81, 128, 8, 0⟩,
        .data 0 (fun _ => 0) 0 .usbint]
    ∃ td, s.bus.uhci.heap (s.bus.uhci.pipes 0).td = some (.td td) ∧
      (td.controlStatus &&& tdActive = 0 →
        (s.usbsts &&& usbstsUsbint ≠ 0 ∨ s.usbsts &&& usbstsUsberrint ≠ 0) ∨
          ∃ cause, (0, cause) ∈ s.owed) :=
  no_completion_forgotten vgaText 0xC000 (fun _ => none) (noKeyboards biosConsole) 0
    [.openPipe ⟨⟨0x2010, 0x2020, 0x2030, 0⟩, 0xC000, 1, 0x81, 128, 8, 0⟩,
      .data 0 (fun _ => 0) 0 .usbint] rfl 0 (by decide +kernel)

end CasseOS.Usb
