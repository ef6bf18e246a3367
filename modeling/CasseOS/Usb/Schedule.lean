import CasseOS.Lib.Run
import CasseOS.Usb.Effects

/-! # The schedule over runs of the driver

A run is any sequence of control transfers, opens and closes, each with any
answers of the heap, the registers and the device. Two properties are followed:
that the frame list never points at freed memory, and that an open pipe stays in
all entries of its own schedule. -/

namespace CasseOS.Usb

inductive UsbOp where
  | setDeviceAddress (w : TransferWorld) (ioBase : UInt16) (newAddress : UInt8)
  | getDeviceDescriptor (w : TransferWorld) (addr : UInt8) (devDesc : Addr)
  | getConfigurationDescriptor (w : TransferWorld) (addr : UInt8) (cfg : Addr)
  | getFullConfigurationDescriptor (w : TransferWorld) (addr : UInt8) (buf : Addr)
      (totalLen : UInt16)
  | setConfiguration (w : TransferWorld) (addr cfgVal : UInt8)
  | openInterruptIn (v : OpenWorld) (ioBase : UInt16)
      (devAddr endpointAddress intervalFrames : UInt8) (wMaxPacket : UInt16)
      (keyboardDevIndex : ℤ)
  | close (pipeId : ℤ)

def usbStep (st : Uhci) : UsbOp → Option Uhci
  | .setDeviceAddress w ioBase newAddress => some (uhciSetDeviceAddress w ioBase newAddress st).1
  | .getDeviceDescriptor w addr devDesc => some (uhciGetDeviceDescriptor w addr devDesc st).1
  | .getConfigurationDescriptor w addr cfg =>
    some (uhciGetConfigurationDescriptor w addr cfg st).1
  | .getFullConfigurationDescriptor w addr buf totalLen =>
    some (uhciGetFullConfigurationDescriptor w addr buf totalLen st).1
  | .setConfiguration w addr cfgVal => some (uhciSetConfiguration w addr cfgVal st).1
  | .openInterruptIn v ioBase devAddr endpointAddress intervalFrames wMaxPacket keyboardDevIndex =>
    (uhciKbdOpenInterruptIn v ioBase devAddr endpointAddress intervalFrames wMaxPacket
      keyboardDevIndex st).map Prod.fst
  | .close pipeId => uhciKbdClose pipeId st

/- The answers of the heap the call needs to get as far as the frame list. -/
def UsbOp.answers : UsbOp → List Addr
  | .setDeviceAddress w _ newAddress => transferAnswers w (setAddressRequest newAddress)
  | .getDeviceDescriptor w addr devDesc =>
    transferAnswers w (descriptorRequest addr usbDescTypeDevice 18 devDesc)
  | .getConfigurationDescriptor w addr cfg =>
    transferAnswers w (descriptorRequest addr usbDescTypeConfiguration 9 cfg)
  | .getFullConfigurationDescriptor w addr buf totalLen =>
    transferAnswers w (descriptorRequest addr usbDescTypeConfiguration totalLen buf)
  | .setConfiguration w addr cfgVal => transferAnswers w (setConfigurationRequest addr cfgVal)
  | .openInterruptIn v .. => [v.buf, v.td, v.qh]
  | .close _ => []

/- The entries the call links a QH into. -/
def UsbOp.slots : UsbOp → List Slot
  | .setDeviceAddress w .. => nextTwoSlots w.frnum
  | .getDeviceDescriptor w .. => nextTwoSlots w.frnum
  | .getConfigurationDescriptor w .. => currentSlot w.frnum
  | .getFullConfigurationDescriptor w .. => currentSlot w.frnum
  | .setConfiguration w .. => nextTwoSlots w.frnum
  | .openInterruptIn v ioBase devAddr endpointAddress intervalFrames _ keyboardDevIndex =>
    scheduleSlots (openedPipe v
      (newPipe ioBase devAddr endpointAddress intervalFrames keyboardDevIndex))
  | .close _ => []

/- The call reads a configuration descriptor and the device does not deliver it. -/
def UsbOp.ConfigReadFails : UsbOp → Prop
  | .getConfigurationDescriptor w .. => uhciWaitForTransferComplete w.polled ≠ 1
  | .getFullConfigurationDescriptor w .. => uhciWaitForTransferComplete w.polled ≠ 1
  | _ => False

/- The call gets to write the frame list for a QH of its own. -/
def UsbOp.Links (st : Uhci) : UsbOp → Prop
  | .openInterruptIn v .. => (freePipe st).isSome ∧ Supplied st [v.buf, v.td, v.qh]
  | .close _ => False
  | op => Supplied st op.answers

/-! ### What one call can do -/

inductive StepEffect (st : Uhci) (op : UsbOp) (st₁ : Uhci) : Prop where
  | same (eq : st₁ = st)
  | control (links : Supplied st op.answers → op.Links st)
      (effect : ControlEffect st op.answers op.slots op.ConfigReadFails st₁)
  | openFailed (i : Fin uhciMaxKbdPipes) (failed : OpenFailed st i st₁)
  | opened (i : Fin uhciMaxKbdPipes) (p : KbdPipe) (links : op.Links st)
      (slots : op.slots = scheduleSlots p) (opened : Opened st i p st₁)
  | closed (i : Fin uhciMaxKbdPipes) (used : (st.pipes i).inUse)
      (closed : Closed st i (st.pipes i) st₁)

theorem usbStep_effect (st : Uhci) (op : UsbOp) :
    ∃ st₁, usbStep st op = some st₁ ∧ StepEffect st op st₁ := by
  cases op with
  | setDeviceAddress w ioBase newAddress =>
    exact ⟨_, rfl, .control id (uhciSetDeviceAddress_effect w ioBase newAddress st)⟩
  | getDeviceDescriptor w addr devDesc =>
    exact ⟨_, rfl, .control id (uhciGetDeviceDescriptor_effect w addr devDesc st)⟩
  | getConfigurationDescriptor w addr cfg =>
    exact ⟨_, rfl, .control id (uhciGetConfigurationDescriptor_effect w addr cfg st)⟩
  | getFullConfigurationDescriptor w addr buf totalLen =>
    exact ⟨_, rfl, .control id (uhciGetFullConfigurationDescriptor_effect w addr buf totalLen st)⟩
  | setConfiguration w addr cfgVal =>
    exact ⟨_, rfl, .control id (uhciSetConfiguration_effect w addr cfgVal st)⟩
  | openInterruptIn v ioBase devAddr endpointAddress intervalFrames wMaxPacket keyboardDevIndex =>
    obtain ⟨st₁, r, he, hcases⟩ := uhciKbdOpenInterruptIn_cases v ioBase devAddr endpointAddress
      intervalFrames wMaxPacket keyboardDevIndex st
    refine ⟨st₁, by rw [usbStep, he]; rfl, ?_⟩
    rcases hcases with heq | ⟨i, hfree, hfail | ⟨hsupp, hopen⟩⟩
    · exact .same heq
    · exact .openFailed i hfail
    · exact .opened i _ ⟨by rw [hfree]; rfl, hsupp⟩ rfl hopen
  | close pipeId =>
    obtain ⟨st₁, he, heq | ⟨i, hused, hclosed⟩⟩ := uhciKbdClose_cases pipeId st
    · exact ⟨st₁, he, .same heq⟩
    · exact ⟨st₁, he, .closed i hused hclosed⟩

/-! ### No entry points at freed memory -/

/- Every entry terminates or points at a QH that is allocated and not freed. -/
def FramesLive (st : Uhci) : Prop :=
  ∀ f, st.frameList f = terminate ∨
    ∃ q h, st.heap q = some (.qh h) ∧ st.frameList f = qhWord q

/- A call that gets to link its QH does not fail to read a configuration descriptor. -/
def ConfigReadsSucceed (st : Uhci) (op : UsbOp) : Prop := op.Links st → ¬op.ConfigReadFails

/- The QH of a pipe is only met in the entries of that pipe's schedule. -/
def EntryOk (st : Uhci) (f : Slot) : Prop :=
  st.frameList f = terminate ∨ ∃ q h, st.heap q = some (.qh h) ∧ st.frameList f = qhWord q ∧
    ∀ i, (st.pipes i).inUse → (st.pipes i).qh = q → f ∈ scheduleSlots (st.pipes i)

structure ScheduleInv (st : Uhci) : Prop where
  frames : ∀ f, EntryOk st f
  owns : ∀ i, (st.pipes i).inUse → OwnsBlocks st (st.pipes i)
  apart : ∀ i j, (st.pipes i).inUse → (st.pipes j).inUse → i ≠ j →
    (st.pipes i).buf ≠ (st.pipes j).buf ∧ (st.pipes i).td ≠ (st.pipes j).td ∧
      (st.pipes i).qh ≠ (st.pipes j).qh

section Live
variable {st st₁ : Uhci} {p : KbdPipe} {i : Fin uhciMaxKbdPipes} {answers : List Addr}
  {slots : List Slot} {dangles : Prop}

theorem OwnsBlocks.keeps (h : OwnsBlocks st p) (hk : Keeps st st₁) : OwnsBlocks st₁ p := by
  obtain ⟨⟨x, hx⟩, ⟨y, hy⟩, ⟨z, hz⟩⟩ := h
  exact ⟨⟨x, hk _ _ hx⟩, ⟨y, hk _ _ hy⟩, ⟨z, hk _ _ hz⟩⟩

/- Same pipes, live blocks kept: the entries that are not written stay good. -/
theorem EntryOk.keeps {f : Slot} (h : EntryOk st f) (hk : Keeps st st₁)
    (hp : st₁.pipes = st.pipes) (hf : st₁.frameList f = st.frameList f) : EntryOk st₁ f := by
  unfold EntryOk
  rw [hf, hp]
  rcases h with ht | ⟨q, x, hq, hw, hown⟩
  · exact Or.inl ht
  · exact Or.inr ⟨q, x, hk q _ hq, hw, hown⟩

theorem ScheduleInv.of_keeps (h : ScheduleInv st) (hk : Keeps st st₁)
    (hp : st₁.pipes = st.pipes) (hf : ∀ f, EntryOk st₁ f) : ScheduleInv st₁ := by
  refine ⟨hf, ?_, ?_⟩
  · intro i
    rw [hp]
    exact fun hi => (h.owns i hi).keeps hk
  · rw [hp]
    exact h.apart

theorem ScheduleInv.control (h : ScheduleInv st) (hd : Supplied st answers → ¬dangles)
    (he : ControlEffect st answers slots dangles st₁) : ScheduleInv st₁ := by
  cases he with
  | kept grows =>
    exact h.of_keeps grows.keeps grows.pipes fun f =>
      (h.frames f).keeps grows.keeps grows.pipes (congrFun grows.frames f)
  | written word supplied keeps pipes frames safe =>
    refine h.of_keeps keeps pipes fun f => ?_
    by_cases hf : f ∈ slots
    · have hword : st₁.frameList f = word := (frames f).trans (if_pos hf)
      rcases safe.resolve_left (hd supplied) with ht | ⟨q, x, hq, hfresh, hlive⟩
      · exact Or.inl (hword.trans ht)
      · refine Or.inr ⟨q, x, hlive, hword.trans hq, fun i hi hqi => ?_⟩
        -- the QH is new, so no pipe owns it
        rw [pipes] at hi hqi
        obtain ⟨y, hy⟩ := (h.owns i hi).qh
        exact absurd hqi (ne_of_heap hy hfresh (Option.some_ne_none _))
    · exact (h.frames f).keeps keeps pipes ((frames f).trans (if_neg hf))

/- A cleared pipe is not in use; the others are as they were. -/
theorem cleared_inUse {j : Fin uhciMaxKbdPipes} (hp : st₁.pipes = Function.update st.pipes i {})
    (hj : (st₁.pipes j).inUse) : j ≠ i ∧ st₁.pipes j = st.pipes j := by
  have hne : j ≠ i := fun h => by
    rw [hp, h, Function.update_self] at hj
    exact absurd hj Bool.false_ne_true
  exact ⟨hne, by rw [hp, Function.update_of_ne hne]⟩

/- The entries and the other pipes after a pipe is cleared, given what stays in the heap. -/
theorem ScheduleInv.cleared (h : ScheduleInv st) (hp : st₁.pipes = Function.update st.pipes i {})
    (howns : ∀ j, j ≠ i → (st.pipes j).inUse → OwnsBlocks st₁ (st.pipes j))
    (hf : ∀ f, st₁.frameList f = terminate ∨ (st₁.frameList f = st.frameList f ∧
      ∀ q x, st.heap q = some (.qh x) →
        (∀ j, (st.pipes j).inUse → (st.pipes j).qh = q → f ∈ scheduleSlots (st.pipes j)) →
        st₁.heap q = some (.qh x))) : ScheduleInv st₁ := by
  refine ⟨?_, ?_, ?_⟩
  · intro f
    rcases hf f with ht | ⟨hsame, hlive⟩
    · exact Or.inl ht
    rcases h.frames f with ht | ⟨q, x, hq, hw, hown⟩
    · exact Or.inl (hsame.trans ht)
    · refine Or.inr ⟨q, x, hlive q x hq hown, hsame.trans hw, fun j hj hqj => ?_⟩
      obtain ⟨-, heq⟩ := cleared_inUse hp hj
      rw [heq] at hj hqj ⊢
      exact hown j hj hqj
  · intro j hj
    obtain ⟨hne, heq⟩ := cleared_inUse hp hj
    rw [heq] at hj ⊢
    exact howns j hne hj
  · intro j k hj hk hjk
    obtain ⟨-, hjeq⟩ := cleared_inUse hp hj
    obtain ⟨-, hkeq⟩ := cleared_inUse hp hk
    rw [hjeq] at hj ⊢
    rw [hkeq] at hk ⊢
    exact h.apart j k hj hk hjk

theorem ScheduleInv.openFailed (h : ScheduleInv st) (hfail : OpenFailed st i st₁) :
    ScheduleInv st₁ :=
  h.cleared hfail.pipes (fun j _ hj => (h.owns j hj).keeps hfail.keeps) fun f =>
    Or.inr ⟨congrFun hfail.frames f, fun q _ hq _ => hfail.keeps q _ hq⟩

theorem ScheduleInv.closed (h : ScheduleInv st) (hused : (st.pipes i).inUse)
    (hclosed : Closed st i (st.pipes i) st₁) : ScheduleInv st₁ := by
  obtain ⟨⟨_, hx⟩, ⟨_, hy⟩, ⟨_, hz⟩⟩ := h.owns i hused
  -- only the three blocks of pipe `i` are freed, and they are of three kinds
  have hqh : ∀ q w, q ≠ (st.pipes i).qh → st.heap q = some (.qh w) → st₁.heap q = some (.qh w) := by
    intro q w hne hq
    have htd : q ≠ (st.pipes i).td := ne_of_heap hq hy nofun
    have hbuf : q ≠ (st.pipes i).buf := ne_of_heap hq hx nofun
    exact (hclosed.heap q htd hne hbuf).trans hq
  refine h.cleared hclosed.pipes (fun j hji hj => ?_) fun f => ?_
  · obtain ⟨hbuf, htd, hqne⟩ := h.apart j i hj hused hji
    obtain ⟨⟨x', hx'⟩, ⟨y', hy'⟩, ⟨z', hz'⟩⟩ := h.owns j hj
    have hbt := ne_of_heap hx' hy nofun
    have hbq := ne_of_heap hx' hz nofun
    have htq := ne_of_heap hy' hz nofun
    have htb := ne_of_heap hy' hx nofun
    exact ⟨⟨x', (hclosed.heap _ hbt hbq hbuf).trans hx'⟩,
      ⟨y', (hclosed.heap _ htd htq htb).trans hy'⟩, ⟨z', hqh _ _ hqne hz'⟩⟩
  · by_cases hf : f ∈ scheduleSlots (st.pipes i)
    · exact Or.inl ((hclosed.frames f).trans (if_pos hf))
    · refine Or.inr ⟨(hclosed.frames f).trans (if_neg hf), fun q w hq hown => hqh q w ?_ hq⟩
      exact fun h => hf (hown i hused h.symm)

/- The blocks of a new pipe were free, those of the others were not. -/
theorem ScheduleInv.new_blocks (h : ScheduleInv st) (hopen : Opened st i p st₁)
    {j : Fin uhciMaxKbdPipes} (hj : (st.pipes j).inUse) :
    (st.pipes j).buf ≠ p.buf ∧ (st.pipes j).td ≠ p.td ∧ (st.pipes j).qh ≠ p.qh := by
  obtain ⟨⟨x, hx⟩, ⟨y, hy⟩, ⟨z, hz⟩⟩ := h.owns j hj
  exact ⟨ne_of_heap hx (hopen.fresh p.buf (by simp)) (Option.some_ne_none _),
    ne_of_heap hy (hopen.fresh p.td (by simp)) (Option.some_ne_none _),
    ne_of_heap hz (hopen.fresh p.qh (by simp)) (Option.some_ne_none _)⟩

theorem ScheduleInv.opened_entry (h : ScheduleInv st) (hopen : Opened st i p st₁) (f : Slot) :
    EntryOk st₁ f := by
  by_cases hf : f ∈ scheduleSlots p
  · obtain ⟨x, hx⟩ := hopen.owns.qh
    refine Or.inr ⟨p.qh, x, hx, (hopen.frames f).trans (if_pos hf), fun j hj hqj => ?_⟩
    by_cases hji : j = i
    · rw [hji, hopen.pipe_self]
      exact hf
    · rw [hopen.pipe_of_ne hji] at hj hqj
      exact absurd hqj (h.new_blocks hopen hj).2.2
  · have hsame : st₁.frameList f = st.frameList f := (hopen.frames f).trans (if_neg hf)
    rcases h.frames f with ht | ⟨q, x, hq, hw, hown⟩
    · exact Or.inl (hsame.trans ht)
    · refine Or.inr ⟨q, x, hopen.keeps q _ hq, hsame.trans hw, fun j hj hqj => ?_⟩
      by_cases hji : j = i
      · rw [hji, hopen.pipe_self] at hqj
        have hfresh := hopen.fresh p.qh (by simp)
        exact absurd hqj.symm (ne_of_heap hq hfresh (Option.some_ne_none _))
      · rw [hopen.pipe_of_ne hji] at hj hqj ⊢
        exact hown j hj hqj

theorem ScheduleInv.opened (h : ScheduleInv st) (hopen : Opened st i p st₁) :
    ScheduleInv st₁ := by
  have hself := hopen.pipe_self
  refine ⟨h.opened_entry hopen, ?_, ?_⟩
  · intro j hj
    by_cases hji : j = i
    · rw [hji, hself]
      exact hopen.owns
    · rw [hopen.pipe_of_ne hji] at hj ⊢
      exact (h.owns j hj).keeps hopen.keeps
  · intro j k hj hk hjk
    by_cases hji : j = i
    · have hki : k ≠ i := fun he => hjk (hji.trans he.symm)
      rw [hopen.pipe_of_ne hki] at hk
      rw [hji, hself, hopen.pipe_of_ne hki]
      obtain ⟨h₁, h₂, h₃⟩ := h.new_blocks hopen hk
      exact ⟨h₁.symm, h₂.symm, h₃.symm⟩
    · rw [hopen.pipe_of_ne hji] at hj ⊢
      by_cases hki : k = i
      · rw [hki, hself]
        exact h.new_blocks hopen hj
      · rw [hopen.pipe_of_ne hki] at hk ⊢
        exact h.apart j k hj hk hjk

theorem ScheduleInv.framesLive (h : ScheduleInv st) : FramesLive st := by
  intro f
  rcases h.frames f with ht | ⟨q, x, hq, hw, -⟩
  · exact Or.inl ht
  · exact Or.inr ⟨q, x, hq, hw⟩

theorem usbStep_scheduleInv (h : ScheduleInv st) {op : UsbOp} (hop : ConfigReadsSucceed st op) :
    ∃ st₁, usbStep st op = some st₁ ∧ ScheduleInv st₁ := by
  obtain ⟨st₁, he, heffect⟩ := usbStep_effect st op
  refine ⟨st₁, he, ?_⟩
  cases heffect with
  | same eq => exact eq ▸ h
  | control links effect => exact h.control (fun hs => hop (links hs)) effect
  | openFailed i failed => exact h.openFailed failed
  | opened i p _ _ opened => exact h.opened opened
  | closed i used closed => exact h.closed used closed

end Live

theorem uhciInitializeFrameList_inv (heap : Addr → Option Object) :
    ScheduleInv (uhciInitializeFrameList heap) :=
  ⟨fun _ => Or.inl rfl, fun _ h => absurd h Bool.false_ne_true,
    fun _ _ h => absurd h Bool.false_ne_true⟩

/-- In every run in which the reads of configuration descriptors that reach the frame list
succeed, the frame list never points at freed memory. -/
theorem schedule_points_at_live_qhs (heap : Addr → Option Object) (ops : List UsbOp)
    (hok : Run.Guarded usbStep ConfigReadsSucceed (uhciInitializeFrameList heap) ops) :
    Run.Throughout usbStep FramesLive (uhciInitializeFrameList heap) ops :=
  (Run.throughout_of_invariant (fun _ _ h hop => usbStep_scheduleInv h hop)
    (uhciInitializeFrameList_inv heap) hok).mono fun _ h => h.framesLive

/- A transfer in frame `frnum` whose blocks the heap has and whose TDs all end with `status`. -/
def transferAt (frnum : UInt16) (status : UInt32) : TransferWorld :=
  ⟨0x1010, 0x1020, 0x1030, 0x1040, 0x1050, frnum, 1, 0, fun _ => status, status⟩

/- An open in frame `frnum` for a keyboard that is polled every 128 frames. -/
def openAt (frnum : UInt16) : UsbOp :=
  .openInterruptIn ⟨0x2010, 0x2020, 0x2030, frnum⟩ 0xC000 1 0x81 128 8 0

theorem schedule_points_at_live_qhs_enumerate :
    Run.Throughout usbStep FramesLive (uhciInitializeFrameList fun _ => none)
      [.getConfigurationDescriptor (transferAt 0 0) 1 0x90000, openAt 0, .close 0] :=
  schedule_points_at_live_qhs (fun _ => none) _
    ⟨fun _ h => h (by decide), fun _ _ => ⟨fun _ h => h, fun _ _ => ⟨fun _ h => h,
      fun _ _ => trivial⟩⟩⟩

/- The QH bit hides the low two bits of an address. -/
theorem eq_of_qhWord {q : Addr} (h : qhWord q = 0x1052) :
    ∃ k : Fin 4, q = UInt32.ofNat (0x1050 + k) := by
  have hor : q.toNat ||| 2 = 0x1052 := congrArg UInt32.toNat h
  have hdiv : (q.toNat ||| 2) / 2 ^ 2 = q.toNat / 2 ^ 2 ||| 2 / 2 ^ 2 := Nat.or_div_two_pow
  rw [hor, Nat.div_eq_of_lt (by decide : 2 < 2 ^ 2), Nat.or_zero] at hdiv
  refine ⟨⟨q.toNat - 0x1050, by omega⟩, ?_⟩
  have hq : 0x1050 + (q.toNat - 0x1050) = q.toNat := by omega
  rw [hq, UInt32.ofNat_toNat]

/- The device stalls: the QH at `0x1050` is freed, entry 0 still points at it, and all that is
left in the heap is the setup packet. -/
theorem stalled_config_read_dangles :
    ¬Run.Throughout usbStep FramesLive (uhciInitializeFrameList fun _ => none)
      [.getConfigurationDescriptor (transferAt 0 0x400000) 1 0x90000] := by
  rintro ⟨-, st₁, hstep, hlive⟩
  have hst : (uhciGetConfigurationDescriptor (transferAt 0 0x400000) 1 0x90000
    (uhciInitializeFrameList fun _ => none)).1 = st₁ := Option.some.inj hstep
  have hentry : st₁.frameList 0 = 0x1052 := by
    rw [← hst]
    decide
  have hfreed : ∀ k : Fin 4, st₁.heap (UInt32.ofNat (0x1050 + k)) = none := by
    rw [← hst]
    decide
  rcases hlive 0 with ht | ⟨q, h, hq, hw⟩
  · rw [hentry] at ht
    exact absurd ht (by decide)
  · obtain ⟨k, hk⟩ := eq_of_qhWord (hw.symm.trans hentry)
    rw [hk, hfreed k] at hq
    exact absurd hq.symm (Option.some_ne_none _)

/-! ### An open pipe stays scheduled -/

/- The QH `q` is met on the way from a link: at the link itself, or behind the queue heads that
are chained by their horizontal links. -/
inductive Reaches (st : Uhci) : UInt32 → Addr → Prop where
  | here (q : Addr) : Reaches st (qhWord q) q
  | next {q q' : Addr} {h : Qh} (head : st.heap q' = some (.qh h))
      (tail : Reaches st h.horizontalLinkPointer q) : Reaches st (qhWord q') q

/- Every entry of the schedule of an open pipe leads to the pipe's QH. -/
def PipesScheduled (st : Uhci) : Prop :=
  ∀ i, (st.pipes i).inUse → ∀ f ∈ scheduleSlots (st.pipes i),
    Reaches st (st.frameList f) (st.pipes i).qh

/- The entries the call links its QH into are in no open pipe's schedule. -/
def AvoidsPipes (st : Uhci) (op : UsbOp) : Prop :=
  op.Links st → ∀ i, (st.pipes i).inUse → ∀ f ∈ op.slots, f ∉ scheduleSlots (st.pipes i)

structure PlacedInv (st : Uhci) : Prop where
  placed : ∀ i, (st.pipes i).inUse → ∀ f ∈ scheduleSlots (st.pipes i),
    st.frameList f = qhWord (st.pipes i).qh
  disjoint : ∀ i j, (st.pipes i).inUse → (st.pipes j).inUse → i ≠ j →
    ∀ f ∈ scheduleSlots (st.pipes i), f ∉ scheduleSlots (st.pipes j)

section Placed
variable {st st₁ : Uhci} {p : KbdPipe} {i : Fin uhciMaxKbdPipes} {answers : List Addr}
  {slots : List Slot} {dangles : Prop}

theorem PlacedInv.of_frames (h : PlacedInv st) (hp : st₁.pipes = st.pipes)
    (hf : ∀ i, (st.pipes i).inUse → ∀ f ∈ scheduleSlots (st.pipes i),
      st₁.frameList f = st.frameList f) : PlacedInv st₁ := by
  refine ⟨?_, ?_⟩
  · intro i hi f hfi
    rw [hp] at hi hfi ⊢
    exact (hf i hi f hfi).trans (h.placed i hi f hfi)
  · rw [hp]
    exact h.disjoint

theorem PlacedInv.control (h : PlacedInv st)
    (havoid : Supplied st answers → ∀ i, (st.pipes i).inUse → ∀ f ∈ slots,
      f ∉ scheduleSlots (st.pipes i))
    (he : ControlEffect st answers slots dangles st₁) : PlacedInv st₁ := by
  cases he with
  | kept grows => exact h.of_frames grows.pipes fun _ _ f _ => congrFun grows.frames f
  | written word supplied keeps pipes frames safe =>
    refine h.of_frames pipes fun i hi f hfi => (frames f).trans (if_neg fun hf => ?_)
    exact havoid supplied i hi f hf hfi

theorem PlacedInv.cleared (h : PlacedInv st) (hp : st₁.pipes = Function.update st.pipes i {})
    (hf : ∀ j, j ≠ i → (st.pipes j).inUse → ∀ f ∈ scheduleSlots (st.pipes j),
      st₁.frameList f = st.frameList f) : PlacedInv st₁ := by
  refine ⟨?_, ?_⟩
  · intro j hj f hfj
    obtain ⟨hne, heq⟩ := cleared_inUse hp hj
    rw [heq] at hj hfj ⊢
    exact (hf j hne hj f hfj).trans (h.placed j hj f hfj)
  · intro j k hj hk hjk
    obtain ⟨-, hjeq⟩ := cleared_inUse hp hj
    obtain ⟨-, hkeq⟩ := cleared_inUse hp hk
    rw [hjeq] at hj ⊢
    rw [hkeq] at hk ⊢
    exact h.disjoint j k hj hk hjk

theorem PlacedInv.opened (h : PlacedInv st) (hopen : Opened st i p st₁)
    (havoid : ∀ j, (st.pipes j).inUse → ∀ f ∈ scheduleSlots p, f ∉ scheduleSlots (st.pipes j)) :
    PlacedInv st₁ := by
  have hself := hopen.pipe_self
  refine ⟨?_, ?_⟩
  · intro j hj f hf
    by_cases hji : j = i
    · rw [hji, hself] at hf ⊢
      exact (hopen.frames f).trans (if_pos hf)
    · rw [hopen.pipe_of_ne hji] at hj hf ⊢
      have hnot : f ∉ scheduleSlots p := fun hfp => havoid j hj f hfp hf
      exact ((hopen.frames f).trans (if_neg hnot)).trans (h.placed j hj f hf)
  · intro j k hj hk hjk f hfj hfk
    by_cases hji : j = i
    · have hki : k ≠ i := fun he => hjk (hji.trans he.symm)
      rw [hopen.pipe_of_ne hki] at hk hfk
      rw [hji, hself] at hfj
      exact havoid k hk f hfj hfk
    · rw [hopen.pipe_of_ne hji] at hj hfj
      by_cases hki : k = i
      · rw [hki, hself] at hfk
        exact havoid j hj f hfk hfj
      · rw [hopen.pipe_of_ne hki] at hk hfk
        exact h.disjoint j k hj hk hjk f hfj hfk

theorem PlacedInv.pipesScheduled (h : PlacedInv st) : PipesScheduled st := by
  intro i hi f hf
  rw [h.placed i hi f hf]
  exact .here _

theorem usbStep_placedInv (h : PlacedInv st) {op : UsbOp} (hop : AvoidsPipes st op) :
    ∃ st₁, usbStep st op = some st₁ ∧ PlacedInv st₁ := by
  obtain ⟨st₁, he, heffect⟩ := usbStep_effect st op
  refine ⟨st₁, he, ?_⟩
  cases heffect with
  | same eq => exact eq ▸ h
  | control links effect => exact h.control (fun hs => hop (links hs)) effect
  | openFailed i failed =>
    exact h.cleared failed.pipes fun _ _ _ f _ => congrFun failed.frames f
  | opened i p links slots opened => exact h.opened opened (slots ▸ hop links)
  | closed i used closed =>
    -- the schedules are disjoint, so closing one pipe leaves the entries of the others
    refine h.cleared closed.pipes fun j hji hj f hf => ?_
    exact (closed.frames f).trans (if_neg (h.disjoint j i hj used hji f hf))

end Placed

/-- In every run in which no call links a QH into an entry of an open pipe's schedule, every open
pipe stays in all entries of its schedule. -/
theorem open_pipes_stay_scheduled (heap : Addr → Option Object) (ops : List UsbOp)
    (hok : Run.Guarded usbStep AvoidsPipes (uhciInitializeFrameList heap) ops) :
    Run.Throughout usbStep PipesScheduled (uhciInitializeFrameList heap) ops := by
  have hinit : PlacedInv (uhciInitializeFrameList heap) :=
    ⟨fun _ h => absurd h Bool.false_ne_true, fun _ _ h => absurd h Bool.false_ne_true⟩
  exact (Run.throughout_of_invariant (fun _ _ h hop => usbStep_placedInv h hop) hinit hok).mono
    fun _ h => h.pipesScheduled

/- The keyboard is polled in frames 1, 129, ...; the transfer uses frames 2 and 3. -/
theorem open_pipes_stay_scheduled_configure :
    Run.Throughout usbStep PipesScheduled (uhciInitializeFrameList fun _ => none)
      [openAt 0, .setConfiguration (transferAt 1 0) 1 1, .close 0] := by
  have hslots : (usbStep (uhciInitializeFrameList fun _ => none) (openAt 0)).all
      (fun st => decide (∀ i, (st.pipes i).inUse →
        ∀ f ∈ nextTwoSlots 1, f ∉ scheduleSlots (st.pipes i))) = true := by
    decide +kernel
  refine open_pipes_stay_scheduled (fun _ => none) _ ⟨fun _ i hi => ?_, fun st hst =>
    ⟨fun _ i hi => ?_, fun _ _ => ⟨fun h => h.elim, fun _ _ => trivial⟩⟩⟩
  · exact absurd hi Bool.false_ne_true
  · rw [hst, Option.all_some, decide_eq_true_iff] at hslots
    exact hslots i hi

theorem terminate_not_reaches (st : Uhci) (q : Addr) : ¬Reaches st terminate q := by
  intro h
  generalize hword : terminate = word at h
  cases h with
  | here q => exact qhWord_ne_terminate q hword.symm
  | next head tail => exact qhWord_ne_terminate _ hword.symm

/- SET_CONFIGURATION at frame 0 terminates entry 1, which belongs to the open pipe 0. -/
theorem configuration_silences_pipe :
    ¬Run.Throughout usbStep PipesScheduled (uhciInitializeFrameList fun _ => none)
      [openAt 0, .setConfiguration (transferAt 0 0) 1 1] := by
  rintro ⟨-, st₁, hopen, -, st₂, hconf, hsched⟩
  have hexec : Run.exec usbStep (uhciInitializeFrameList fun _ => none)
      [openAt 0, .setConfiguration (transferAt 0 0) 1 1] = some st₂ := by
    simp only [Run.exec, hopen, hconf, Option.bind_some]
  have hend : (Run.exec usbStep (uhciInitializeFrameList fun _ => none)
      [openAt 0, .setConfiguration (transferAt 0 0) 1 1]).all (fun st =>
        decide ((st.pipes 0).inUse ∧ 1 ∈ scheduleSlots (st.pipes 0) ∧
          st.frameList 1 = terminate)) = true := by
    decide
  rw [hexec] at hend
  obtain ⟨huse, hmem, hword⟩ := of_decide_eq_true hend
  have hreach := hsched 0 huse 1 hmem
  rw [hword] at hreach
  exact terminate_not_reaches st₂ _ hreach

end CasseOS.Usb
