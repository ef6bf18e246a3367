import CasseOS.Lib.Loop
import CasseOS.Usb.Transfer
import CasseOS.Usb.HidKbd

/-! # What the calls of the UHCI driver do

One lemma for each call: which entries of the frame list it writes, what it
leaves there, and that the blocks it did not allocate itself stay as they are.
The invariants of the schedule are proved from these lemmas and never look into
a helper again. -/

namespace CasseOS.Usb
open Loop

variable {st st₁ st₂ : Uhci} {a b : Addr} {o : Object} {w : TransferWorld} {req : Request}
  {t : Transfer} {slots : List Slot} {word : UInt32}

/-! ### The heap -/

/- Every block that is live in `st` is live in `st₁`, with the same contents. -/
def Keeps (st st₁ : Uhci) : Prop := ∀ a o, st.heap a = some o → st₁.heap a = some o

theorem Keeps.refl (st : Uhci) : Keeps st st := fun _ _ h => h

theorem Keeps.fresh (h : Keeps st st₁) (ha : st₁.heap a = none) : st.heap a = none := by
  cases hs : st.heap a with
  | none => rfl
  | some o => rw [h a o hs] at ha; exact absurd ha (Option.some_ne_none o)

/- Blocks with different contents, or a live and a free one, have different addresses. -/
theorem ne_of_heap {x y : Option Object} (ha : st.heap a = x) (hb : st.heap b = y) (h : x ≠ y) :
    a ≠ b := fun he => h (ha.symm.trans (he ▸ hb))

theorem Keeps.store (h : Keeps st st₁) (ha : st.heap a = none) (o : Object) :
    Keeps st (st₁.store a o) := by
  intro b x hb
  have hne : b ≠ a := ne_of_heap hb ha (Option.some_ne_none x)
  exact (Function.update_of_ne hne _ _).trans (h b x hb)

theorem Keeps.alignedFree (h : Keeps st st₁) (ha : a = 0 ∨ st.heap a = none) :
    Keeps st (st₁.alignedFree a) := by
  intro b x hb
  unfold Uhci.alignedFree
  split
  · exact h b x hb
  · next hz =>
    have hne : b ≠ a := ne_of_heap hb (ha.resolve_left hz) (Option.some_ne_none x)
    exact (Function.update_of_ne hne _ _).trans (h b x hb)

theorem Keeps.freeAll {l : List Addr} (h : Keeps st st₁) (hl : ∀ a ∈ l, a = 0 ∨ st.heap a = none) :
    Keeps st (st₁.freeAll l) := by
  induction l generalizing st₁ with
  | nil => exact h
  | cons a l ih =>
    exact ih (h.alignedFree (hl a List.mem_cons_self)) fun b hb =>
      hl b (List.mem_cons_of_mem a hb)

theorem alignedAlloc_cases (st : Uhci) (a : Addr) (o : Object) :
    (st.CanGive a ∧ st.alignedAlloc a o = (a, st.store a o)) ∨ st.alignedAlloc a o = (0, st) := by
  unfold Uhci.alignedAlloc
  by_cases h : st.CanGive a
  · exact Or.inl ⟨h, if_pos h⟩
  · exact Or.inr (if_neg h)

theorem Keeps.alignedAlloc (h : Keeps st st₁) (a : Addr) (o : Object) :
    Keeps st (st₁.alignedAlloc a o).2 := by
  rcases alignedAlloc_cases st₁ a o with ⟨hgive, he⟩ | he
  · rw [he]
    exact h.store (h.fresh hgive.2.2) o
  · rw [he]
    exact h

/- The call may have allocated blocks; the frame list and the pipes are as before. -/
structure Grows (st st₁ : Uhci) : Prop where
  keeps : Keeps st st₁
  frames : st₁.frameList = st.frameList
  pipes : st₁.pipes = st.pipes

theorem Grows.refl (st : Uhci) : Grows st st := ⟨Keeps.refl st, rfl, rfl⟩

@[simp] theorem store_frameList (st : Uhci) (a : Addr) (o : Object) :
    (st.store a o).frameList = st.frameList := rfl

@[simp] theorem store_pipes (st : Uhci) (a : Addr) (o : Object) :
    (st.store a o).pipes = st.pipes := rfl

@[simp] theorem store_heap_self (st : Uhci) (a : Addr) (o : Object) :
    (st.store a o).heap a = some o := Function.update_self ..

theorem store_heap_of_ne (st : Uhci) (o : Object) (h : b ≠ a) :
    (st.store a o).heap b = st.heap b := Function.update_of_ne h ..

@[simp] theorem alignedAlloc_frameList (st : Uhci) (a : Addr) (o : Object) :
    (st.alignedAlloc a o).2.frameList = st.frameList := by
  rcases alignedAlloc_cases st a o with ⟨-, he⟩ | he <;> rw [he]
  rfl

@[simp] theorem alignedAlloc_pipes (st : Uhci) (a : Addr) (o : Object) :
    (st.alignedAlloc a o).2.pipes = st.pipes := by
  rcases alignedAlloc_cases st a o with ⟨-, he⟩ | he <;> rw [he]
  rfl

@[simp] theorem alignedFree_frameList (st : Uhci) (a : Addr) :
    (st.alignedFree a).frameList = st.frameList := by
  unfold Uhci.alignedFree
  split <;> rfl

@[simp] theorem alignedFree_pipes (st : Uhci) (a : Addr) :
    (st.alignedFree a).pipes = st.pipes := by
  unfold Uhci.alignedFree
  split <;> rfl

@[simp] theorem freeAll_frameList (st : Uhci) (l : List Addr) :
    (st.freeAll l).frameList = st.frameList := by
  induction l generalizing st with
  | nil => rfl
  | cons a l ih => exact (ih _).trans (alignedFree_frameList st a)

@[simp] theorem freeAll_pipes (st : Uhci) (l : List Addr) : (st.freeAll l).pipes = st.pipes := by
  induction l generalizing st with
  | nil => rfl
  | cons a l ih => exact (ih _).trans (alignedFree_pipes st a)

theorem Grows.alignedAlloc {x : Addr} (h : Grows st st₁) (he : st₁.alignedAlloc a o = (x, st₂)) :
    Grows st st₂ := by
  have hk := h.keeps.alignedAlloc a o
  have hf := alignedAlloc_frameList st₁ a o
  have hp := alignedAlloc_pipes st₁ a o
  rw [he] at hk hf hp
  exact ⟨hk, hf.trans h.frames, hp.trans h.pipes⟩

theorem alignedFree_heap_of_ne (st : Uhci) (h : b ≠ a) :
    (st.alignedFree a).heap b = st.heap b := by
  unfold Uhci.alignedFree
  split
  · rfl
  · exact Function.update_of_ne h ..

/-! ### The answers of the heap -/

/- The heap can satisfy requests with these answers, one after the other. -/
def Supplied (st : Uhci) (answers : List Addr) : Prop :=
  (∀ a ∈ answers, st.CanGive a) ∧ answers.Nodup

theorem canGive_store (h : (st.store b o).CanGive a) : a ≠ b ∧ st.CanGive a := by
  obtain ⟨hz, h16, hnone⟩ := h
  have hne : a ≠ b := ne_of_heap hnone (store_heap_self st b o) nofun
  exact ⟨hne, hz, h16, (store_heap_of_ne st o hne).symm.trans hnone⟩

theorem supplied_cons {l : List Addr} (ha : st.CanGive a) (hl : Supplied (st.store a o) l) :
    Supplied st (a :: l) := by
  refine ⟨?_, List.nodup_cons.mpr ⟨fun hmem => (canGive_store (hl.1 a hmem)).1 rfl, hl.2⟩⟩
  intro b hb
  rcases List.mem_cons.mp hb with rfl | hb
  · exact ha
  · exact (canGive_store (hl.1 b hb)).2

theorem supplied_singleton (ha : st.CanGive a) : Supplied st [a] :=
  ⟨fun _ hb => (List.mem_singleton.mp hb) ▸ ha, List.nodup_singleton a⟩

theorem alignedAlloc_of_ne_zero {x : Addr} (h : st.alignedAlloc a o = (x, st₁)) (hx : x ≠ 0) :
    x = a ∧ st.CanGive a ∧ st₁ = st.store a o := by
  rcases alignedAlloc_cases st a o with ⟨hgive, he⟩ | he
  · rw [he] at h
    obtain ⟨rfl, rfl⟩ := Prod.mk.inj h
    exact ⟨rfl, hgive, rfl⟩
  · rw [he] at h
    exact absurd (Prod.mk.inj h).1.symm hx

theorem Grows.answer {x : Addr} (h : Grows st st₁) (he : st₁.alignedAlloc a o = (x, st₂)) :
    x = 0 ∨ st.heap x = none := by
  by_cases hx : x = 0
  · exact Or.inl hx
  · obtain ⟨rfl, hgive, -⟩ := alignedAlloc_of_ne_zero he hx
    exact Or.inr (h.keeps.fresh hgive.2.2)

/-! ### Allocating a transfer -/

/- The answers a transfer depends on. -/
def transferAnswers (w : TransferWorld) (req : Request) : List Addr :=
  if req.data.isSome then [w.sp, w.tdSetup, w.tdData, w.tdStatus, w.qh]
  else [w.sp, w.tdSetup, w.tdStatus, w.qh]

/- The transfer `t` has its blocks, none of which was live before, and the QH is set up. -/
structure Prepared (st : Uhci) (t : Transfer) (st₁ : Uhci) : Prop where
  grows : Grows st st₁
  fresh : ∀ a ∈ [t.sp, t.tdSetup, t.tdData, t.tdStatus, t.qh], a = 0 ∨ st.heap a = none
  qhFresh : st.heap t.qh = none
  qhLive : ∃ h, st₁.heap t.qh = some (.qh h)

theorem linkTransfer_grows (h : Grows st st₁) (hsetup : st.heap t.tdSetup = none)
    (hdata : req.data.isSome → st.heap t.tdData = none) (hstatus : st.heap t.tdStatus = none)
    (hqh : st.heap t.qh = none) : Grows st (linkTransfer req t st₁) := by
  unfold linkTransfer
  cases hd : req.data with
  | none =>
    exact ⟨((h.keeps.store hsetup _).store hstatus _).store hqh _, h.frames, h.pipes⟩
  | some d =>
    have hdata' := hdata (by rw [hd]; rfl)
    exact ⟨(((h.keeps.store hsetup _).store hdata' _).store hstatus _).store hqh _, h.frames,
      h.pipes⟩

theorem linkTransfer_qh (req : Request) (t : Transfer) (st : Uhci) :
    (linkTransfer req t st).heap t.qh = some (.qh ⟨0x00000001, t.tdSetup⟩) := by
  unfold linkTransfer
  cases req.data with
  | none => exact store_heap_self ..
  | some d => exact store_heap_self ..

/- The data stage is the only request that depends on the kind of transfer. -/
theorem dataStage_grows {tdData : Addr} (h : Grows st st₁)
    (he : (if req.data.isSome then st₁.alignedAlloc w.tdData (.td {}) else (0, st₁)) =
      (tdData, st₂)) : Grows st st₂ ∧ (tdData = 0 ∨ st.heap tdData = none) := by
  split at he
  · exact ⟨h.alignedAlloc he, h.answer he⟩
  · obtain ⟨rfl, rfl⟩ := Prod.mk.inj he
    exact ⟨h, Or.inl rfl⟩

theorem dataStage_supplied {tdData : Addr} {l : List Addr}
    (he : (if req.data.isSome then st₁.alignedAlloc w.tdData (.td {}) else (0, st₁)) =
      (tdData, st₂)) (hne : ¬(req.data.isSome ∧ tdData = 0)) (hl : Supplied st₂ l) :
    Supplied st₁ (if req.data.isSome then w.tdData :: l else l) := by
  by_cases hd : req.data.isSome
  · rw [if_pos hd] at he ⊢
    obtain ⟨-, hgive, rfl⟩ := alignedAlloc_of_ne_zero he fun h => hne ⟨hd, h⟩
    exact supplied_cons hgive hl
  · rw [if_neg hd] at he ⊢
    exact (Prod.mk.inj he).2 ▸ hl

/- Either the transfer is given up, or every request was satisfied. -/
theorem allocateTransfer_cases (w : TransferWorld) (req : Request) (st : Uhci) :
    (∃ st₁, allocateTransfer w req st = (none, st₁) ∧ Grows st st₁) ∨
    (Supplied st (transferAnswers w req) ∧
      ∃ t st₁, allocateTransfer w req st = (some t, st₁) ∧ Prepared st t st₁) := by
  rcases hsp : st.alignedAlloc w.sp (.setupPacket req.packet) with ⟨sp, s₁⟩
  rcases hsetup : s₁.alignedAlloc w.tdSetup (.td {}) with ⟨tdSetup, s₂⟩
  rcases hdata : (if req.data.isSome then s₂.alignedAlloc w.tdData (.td {}) else (0, s₂)) with
    ⟨tdData, s₃⟩
  rcases hstatus : s₃.alignedAlloc w.tdStatus (.td {}) with ⟨tdStatus, s₄⟩
  rcases hqh : s₄.alignedAlloc w.qh (.qh {}) with ⟨qh, s₅⟩
  have g₁ : Grows st s₁ := (Grows.refl st).alignedAlloc hsp
  have g₂ : Grows st s₂ := g₁.alignedAlloc hsetup
  obtain ⟨g₃, fdata⟩ := dataStage_grows g₂ hdata
  have g₄ : Grows st s₄ := g₃.alignedAlloc hstatus
  have g₅ : Grows st s₅ := g₄.alignedAlloc hqh
  have fsp := (Grows.refl st).answer hsp
  have fsetup := g₁.answer hsetup
  have fstatus := g₃.answer hstatus
  have fqh := g₄.answer hqh
  simp only [allocateTransfer, hsp, hsetup, hdata, hstatus, hqh]
  by_cases hnosp : sp = 0
  · exact Or.inl ⟨s₁, if_pos hnosp, g₁⟩
  rw [if_neg hnosp]
  by_cases hfail : tdSetup = 0 ∨ (req.data.isSome ∧ tdData = 0) ∨ tdStatus = 0 ∨ qh = 0
  · exact Or.inl ⟨s₅, if_pos hfail, g₅⟩
  rw [if_neg hfail]
  obtain ⟨hsetup0, hdata0, hstatus0, hqh0⟩ :
      tdSetup ≠ 0 ∧ ¬(req.data.isSome ∧ tdData = 0) ∧ tdStatus ≠ 0 ∧ qh ≠ 0 := by
    simpa only [not_or] using hfail
  obtain ⟨-, hgsp, rfl⟩ := alignedAlloc_of_ne_zero hsp hnosp
  obtain ⟨-, hgsetup, rfl⟩ := alignedAlloc_of_ne_zero hsetup hsetup0
  obtain ⟨-, hgstatus, rfl⟩ := alignedAlloc_of_ne_zero hstatus hstatus0
  obtain ⟨-, hgqh, rfl⟩ := alignedAlloc_of_ne_zero hqh hqh0
  have hsupp := supplied_cons hgsp (supplied_cons hgsetup (dataStage_supplied hdata hdata0
    (supplied_cons hgstatus (supplied_singleton hgqh))))
  have hanswers : transferAnswers w req = w.sp :: w.tdSetup ::
      (if req.data.isSome then w.tdData :: [w.tdStatus, w.qh] else [w.tdStatus, w.qh]) := by
    unfold transferAnswers
    split <;> rfl
  have hgrows := linkTransfer_grows (t := ⟨sp, tdSetup, tdData, tdStatus, qh⟩) g₅
    (fsetup.resolve_left hsetup0) (fun hd => fdata.resolve_left fun h => hdata0 ⟨hd, h⟩)
    (fstatus.resolve_left hstatus0) (fqh.resolve_left hqh0)
  refine Or.inr ⟨hanswers ▸ hsupp, _, _, rfl, hgrows, ?_, fqh.resolve_left hqh0, _,
    linkTransfer_qh ..⟩
  intro a ha
  simp only [List.mem_cons, List.not_mem_nil, or_false] at ha
  rcases ha with rfl | rfl | rfl | rfl | rfl
  · exact fsp
  · exact fsetup
  · exact fdata
  · exact fstatus
  · exact fqh

/-! ### The control helpers -/

theorem setFrames_apply (st : Uhci) (slots : List Slot) (word : UInt32) (f : Slot) :
    (st.setFrames slots word).frameList f = if f ∈ slots then word else st.frameList f :=
  foldl_update_apply slots word st.frameList f

/- The QH bit tells an entry that leads to a QH from one that terminates. -/
theorem qhWord_ne_terminate (q : Addr) : qhWord q ≠ terminate := by
  intro h
  have hor : q.toNat ||| 2 = 1 := congrArg UInt32.toNat h
  have hle : 2 ≤ q.toNat ||| 2 := Nat.right_le_or
  omega

/- `word` may stay in the frame list: it terminates, or it points at a QH that was allocated by
the call and is live after it. -/
def SafeWord (st st₁ : Uhci) (word : UInt32) : Prop :=
  word = terminate ∨ ∃ q h, word = qhWord q ∧ st.heap q = none ∧ st₁.heap q = some (.qh h)

/- What a control helper does: nothing but allocate, or one word in all its entries. The word is
safe unless `dangles`. -/
inductive ControlEffect (st : Uhci) (answers : List Addr) (slots : List Slot) (dangles : Prop)
    (st₁ : Uhci) : Prop where
  | kept (grows : Grows st st₁)
  | written (word : UInt32) (supplied : Supplied st answers) (keeps : Keeps st st₁)
      (pipes : st₁.pipes = st.pipes)
      (frames : ∀ f, st₁.frameList f = if f ∈ slots then word else st.frameList f)
      (safe : dangles ∨ SafeWord st st₁ word)

/- The exits after the QH is linked. `s` is the state in which the helper decides. -/
section Exits
variable {answers : List Addr} {dangles : Prop} {s : Uhci} {l : List Addr}
  (hsupp : Supplied st answers)

/- The QH of `t` is linked into the entries. -/
structure Linked (st : Uhci) (t : Transfer) (slots : List Slot) (s : Uhci) : Prop where
  keeps : Keeps st s
  pipes : s.pipes = st.pipes
  frames : ∀ f, s.frameList f = if f ∈ slots then qhWord t.qh else st.frameList f
  fresh : ∀ a ∈ [t.sp, t.tdSetup, t.tdData, t.tdStatus, t.qh], a = 0 ∨ st.heap a = none
  qhFresh : st.heap t.qh = none
  qhLive : ∃ h, s.heap t.qh = some (.qh h)

theorem Prepared.link (h : Prepared st t st₁) (slots : List Slot) :
    Linked st t slots (st₁.setFrames slots (qhWord t.qh)) :=
  ⟨h.grows.keeps, h.grows.pipes, fun f => by rw [setFrames_apply, h.grows.frames], h.fresh,
    h.qhFresh, h.qhLive⟩

include hsupp

theorem Linked.leave (h : Linked st t slots s) : ControlEffect st answers slots dangles s := by
  obtain ⟨x, hx⟩ := h.qhLive
  exact .written (qhWord t.qh) hsupp h.keeps h.pipes h.frames
    (Or.inr (Or.inr ⟨t.qh, x, rfl, h.qhFresh, hx⟩))

theorem Linked.clean (h : Linked st t slots s)
    (hl : l ⊆ [t.sp, t.tdSetup, t.tdData, t.tdStatus, t.qh]) :
    ControlEffect st answers slots dangles ((s.setFrames slots terminate).freeAll l) := by
  have hkeeps : Keeps st (s.setFrames slots terminate) := h.keeps
  refine .written terminate hsupp (hkeeps.freeAll fun a ha => h.fresh a (hl ha))
    ((freeAll_pipes _ l).trans h.pipes) (fun f => ?_) (Or.inr (Or.inl rfl))
  rw [freeAll_frameList, setFrames_apply, h.frames f]
  by_cases hf : f ∈ slots
  · rw [if_pos hf, if_pos hf]
  · rw [if_neg hf, if_neg hf, if_neg hf]

theorem Linked.drop (h : Linked st t slots s) (hdangles : dangles)
    (hl : l ⊆ [t.sp, t.tdSetup, t.tdData, t.tdStatus, t.qh]) :
    ControlEffect st answers slots dangles (s.freeAll l) :=
  .written (qhWord t.qh) hsupp (h.keeps.freeAll fun a ha => h.fresh a (hl ha))
    ((freeAll_pipes s l).trans h.pipes) (fun f => by rw [freeAll_frameList, h.frames f])
    (Or.inl hdangles)

end Exits

theorem Linked.portWordOut {s : Uhci} (h : Linked st t slots s) (port value : UInt16) :
    Linked st t slots (s.portWordOut port value) :=
  ⟨h.keeps, h.pipes, h.frames, h.fresh, h.qhFresh, h.qhLive⟩

/- A helper either gives the transfer up, or goes on in the state in which it is prepared. -/
theorem transfer_effect {w : TransferWorld} {req : Request} {slots : List Slot} {dangles : Prop}
    {rest : Transfer → Uhci → Uhci × ℤ}
    (hrest : Supplied st (transferAnswers w req) → ∀ t s, Prepared st t s →
      ControlEffect st (transferAnswers w req) slots dangles (rest t s).1) :
    ControlEffect st (transferAnswers w req) slots dangles
      (match allocateTransfer w req st with
      | (none, s) => (s, 0)
      | (some t, s) => rest t s).1 := by
  obtain ⟨s, he, hgrows⟩ | ⟨hsupp, t, s, he, hprep⟩ := allocateTransfer_cases w req st
  · rw [he]
    exact .kept hgrows
  · rw [he]
    exact hrest hsupp t s hprep

theorem uhciSetDeviceAddress_effect (w : TransferWorld) (ioBase : UInt16) (newAddress : UInt8)
    (st : Uhci) :
    ControlEffect st (transferAnswers w (setAddressRequest newAddress)) (nextTwoSlots w.frnum)
      False (uhciSetDeviceAddress w ioBase newAddress st).1 := by
  unfold uhciSetDeviceAddress
  refine transfer_effect fun hsupp t st₁ hprep => ?_
  have hlink := hprep.link (nextTwoSlots w.frnum)
  dsimp only
  split
  · exact hlink.leave hsupp
  split
  · exact hlink.leave hsupp
  have hport : Linked st t (nextTwoSlots w.frnum)
      (if w.usbsts &&& 0x02 ≠ 0 then
        (st₁.setFrames (nextTwoSlots w.frnum) (qhWord t.qh)).portWordOut (ioBase + 0x02) 0x02
      else st₁.setFrames (nextTwoSlots w.frnum) (qhWord t.qh)) := by
    split
    · exact hlink.portWordOut _ _
    · exact hlink
  split
  · exact hport.clean hsupp (by simp)
  · exact hport.clean hsupp (by simp)

theorem uhciGetDeviceDescriptor_effect (w : TransferWorld) (addr : UInt8) (devDesc : Addr)
    (st : Uhci) :
    ControlEffect st (transferAnswers w (descriptorRequest addr usbDescTypeDevice 18 devDesc))
      (nextTwoSlots w.frnum) False (uhciGetDeviceDescriptor w addr devDesc st).1 := by
  unfold uhciGetDeviceDescriptor
  refine transfer_effect fun hsupp t st₁ hprep => ?_
  have hlink := hprep.link (nextTwoSlots w.frnum)
  dsimp only
  split
  · exact hlink.leave hsupp
  split
  · exact hlink.clean hsupp (by simp)
  · exact hlink.clean hsupp (by simp)

/- Here the failed wait frees the QH while the entry still points at it. -/
theorem uhciGetConfigurationDescriptor_effect (w : TransferWorld) (addr : UInt8) (cfg : Addr)
    (st : Uhci) :
    ControlEffect st
      (transferAnswers w (descriptorRequest addr usbDescTypeConfiguration 9 cfg))
      (currentSlot w.frnum) (uhciWaitForTransferComplete w.polled ≠ 1)
      (uhciGetConfigurationDescriptor w addr cfg st).1 := by
  unfold uhciGetConfigurationDescriptor
  refine transfer_effect fun hsupp t st₁ hprep => ?_
  have hlink := hprep.link (currentSlot w.frnum)
  dsimp only
  split
  · next hwait => exact hlink.drop hsupp hwait (by simp)
  · exact hlink.clean hsupp (by simp)

theorem uhciGetFullConfigurationDescriptor_effect (w : TransferWorld) (addr : UInt8) (buf : Addr)
    (totalLen : UInt16) (st : Uhci) :
    ControlEffect st
      (transferAnswers w (descriptorRequest addr usbDescTypeConfiguration totalLen buf))
      (currentSlot w.frnum) (uhciWaitForTransferComplete w.polled ≠ 1)
      (uhciGetFullConfigurationDescriptor w addr buf totalLen st).1 := by
  unfold uhciGetFullConfigurationDescriptor
  refine transfer_effect fun hsupp t st₁ hprep => ?_
  have hlink := hprep.link (currentSlot w.frnum)
  dsimp only
  split
  · next hwait => exact hlink.drop hsupp hwait (by simp)
  · exact hlink.clean hsupp (by simp)

theorem uhciSetConfiguration_effect (w : TransferWorld) (addr cfgVal : UInt8) (st : Uhci) :
    ControlEffect st (transferAnswers w (setConfigurationRequest addr cfgVal))
      (nextTwoSlots w.frnum) False (uhciSetConfiguration w addr cfgVal st).1 := by
  unfold uhciSetConfiguration
  refine transfer_effect fun hsupp t st₁ hprep => ?_
  have hlink := hprep.link (nextTwoSlots w.frnum)
  dsimp only
  split
  · exact hlink.leave hsupp
  split
  · exact hlink.clean hsupp (by simp)
  · exact hlink.clean hsupp (by simp)

/-! ### The schedule of a pipe -/

theorem slotOf_val (f : Slot) : slotOf f.val = f := Fin.ext (Nat.mod_eq_of_lt f.isLt)

theorem nextSlot_slotOf (interval : UInt8) (n : ℕ) :
    nextSlot interval (slotOf n) = slotOf (n + interval.toNat) :=
  Fin.ext (Nat.mod_add_mod n 1024 interval.toNat)

theorem nextSlot_iterate (interval : UInt8) (f : Slot) (k : ℕ) :
    (nextSlot interval)^[k] f = slotOf (f.val + k * interval.toNat) := by
  induction k with
  | zero => rw [Nat.zero_mul, Nat.add_zero, slotOf_val]; rfl
  | succ k ih =>
    rw [Function.iterate_succ_apply', ih, nextSlot_slotOf, Nat.succ_mul, Nat.add_assoc]

/- Whatever the interval, 1024 steps come back to the first slot. -/
theorem nextSlot_back (interval : UInt8) (f : Slot) : (nextSlot interval)^[1024] f = f := by
  rw [nextSlot_iterate]
  refine Fin.ext ?_
  have hmod : (f.val + 1024 * interval.toNat) % 1024 = f.val % 1024 :=
    Nat.add_mul_mod_self_left ..
  exact hmod.trans (Nat.mod_eq_of_lt f.isLt)

/- The loop ends, and runs its body over the slots of the schedule. -/
theorem everyInterval_eq {S : Type*} (p : KbdPipe) (body : Slot → S → S) (s : S) :
    everyInterval p body s = some ((scheduleSlots p).foldl (fun s f => body f s) s) := by
  have hback := nextSlot_back p.interval p.firstSlot
  unfold scheduleSlots everyInterval
  by_cases hz : p.interval = 0
  · rw [if_pos hz, if_pos hz]
    rfl
  · rw [if_neg hz, if_neg hz, Orbit.walk_eq body s (by decide) hback le_rfl,
      Orbit.walk_collect (by decide) hback le_rfl, Option.getD_some, List.foldl_map]

theorem writeSchedule_eq (p : KbdPipe) (word : UInt32) (st : Uhci) :
    writeSchedule p word st = some (st.setFrames (scheduleSlots p) word) := by
  unfold writeSchedule
  rw [everyInterval_eq]
  rfl

/-! ### Opening and closing a pipe -/

section Pipes
variable {i : Fin uhciMaxKbdPipes} {p : KbdPipe} {v : OpenWorld}

/- A live block for each of the three pointers of a pipe. -/
structure OwnsBlocks (st : Uhci) (p : KbdPipe) : Prop where
  buf : ∃ x, st.heap p.buf = some (.buffer x)
  td : ∃ x, st.heap p.td = some (.td x)
  qh : ∃ x, st.heap p.qh = some (.qh x)

/- The pipe as it stands after a successful open. -/
def openedPipe (v : OpenWorld) (p : KbdPipe) : KbdPipe :=
  {p with buf := v.buf, td := v.td, qh := v.qh, firstSlot := slotOf ((v.frnum &&& 0x7FF).toNat + 1)}

structure Opened (st : Uhci) (i : Fin uhciMaxKbdPipes) (p : KbdPipe) (st₁ : Uhci) : Prop where
  keeps : Keeps st st₁
  pipes : st₁.pipes = Function.update st.pipes i p
  frames : ∀ f, st₁.frameList f = if f ∈ scheduleSlots p then qhWord p.qh else st.frameList f
  fresh : ∀ a ∈ [p.buf, p.td, p.qh], st.heap a = none
  owns : OwnsBlocks st₁ p

theorem Opened.pipe_self (h : Opened st i p st₁) : st₁.pipes i = p := by
  rw [h.pipes, Function.update_self]

theorem Opened.pipe_of_ne {j : Fin uhciMaxKbdPipes} (h : Opened st i p st₁) (hj : j ≠ i) :
    st₁.pipes j = st.pipes j := by
  rw [h.pipes, Function.update_of_ne hj]

/- The pipe was not opened; it is cleared, and what was allocated for it is freed. -/
structure OpenFailed (st : Uhci) (i : Fin uhciMaxKbdPipes) (st₁ : Uhci) : Prop where
  keeps : Keeps st st₁
  pipes : st₁.pipes = Function.update st.pipes i {}
  frames : st₁.frameList = st.frameList

theorem openFail_failed {s : Uhci} (hgrows : Grows st s)
    (hfresh : ∀ a ∈ [p.td, p.qh, p.buf], a = 0 ∨ st.heap a = none) :
    OpenFailed st i (openFail i (s.setPipe i p)).1 := by
  have hp : (s.setPipe i p).pipes i = p := Function.update_self ..
  have hkeeps : Keeps st (s.setPipe i p) := hgrows.keeps
  unfold openFail
  rw [hp]
  refine ⟨?_, ?_, ?_⟩
  · exact ((hkeeps.alignedFree (hfresh p.td (by simp))).alignedFree
      (hfresh p.qh (by simp))).alignedFree (hfresh p.buf (by simp))
  · simp only [Uhci.setPipe, alignedFree_pipes, hgrows.pipes, Function.update_idem]
  · simp only [Uhci.setPipe, alignedFree_frameList, hgrows.frames]

theorem uhciKbdRearmTd_eq {td : Td} {qh : Qh} (hp : st.pipes i = p)
    (htd : st.heap p.td = some (.td td)) (hqh : st.heap p.qh = some (.qh qh))
    (hne : p.qh ≠ p.td) :
    uhciKbdRearmTd i false st =
      (st.store p.td (.td {td with
        token := uhciBuildInToken p.devAddr p.ep p.toggle 8, controlStatus := tdArmed})).store
      p.qh (.qh {qh with verticalLinkPointer := p.td}) := by
  have hset : st.setPipe i p = st := by
    subst hp
    simp only [Uhci.setPipe, Function.update_eq_self]
  unfold uhciKbdRearmTd
  simp only [hp, Bool.false_eq_true, if_false, hset, htd, store_heap_of_ne _ _ hne, hqh]

/- The end of a successful open: the TD is armed, the QH is set up and placed. -/
theorem placed_opened {s : Uhci} {td : Td} {qh : Qh} {x : List UInt8} (frnum : UInt16)
    (hkeeps : Keeps st s) (hframes : s.frameList = st.frameList)
    (hpipes : s.pipes = Function.update st.pipes i p)
    (hfresh : ∀ a ∈ [p.buf, p.td, p.qh], st.heap a = none)
    (hbuf : s.heap p.buf = some (.buffer x)) (htd : s.heap p.td = some (.td td))
    (hqh : s.heap p.qh = some (.qh qh)) :
    ∃ st₁, placeQhEveryInterval frnum i
        ((uhciKbdRearmTd i false s).store p.qh (.qh ⟨0x00000001, p.td⟩)) = some st₁ ∧
      Opened st i {p with firstSlot := slotOf ((frnum &&& 0x7FF).toNat + 1)} st₁ := by
  have hpipe : s.pipes i = p := by rw [hpipes, Function.update_self]
  have hqt : p.qh ≠ p.td := ne_of_heap hqh htd nofun
  have hbt : p.buf ≠ p.td := ne_of_heap hbuf htd nofun
  have hbq : p.buf ≠ p.qh := ne_of_heap hbuf hqh nofun
  have ftd : st.heap p.td = none := hfresh p.td (by simp)
  have fqh : st.heap p.qh = none := hfresh p.qh (by simp)
  rw [uhciKbdRearmTd_eq hpipe htd hqh hqt]
  simp only [placeQhEveryInterval, writeSchedule_eq, store_pipes, hpipe]
  refine ⟨_, rfl, ((hkeeps.store ftd _).store fqh _).store fqh _, ?_, ?_, hfresh, ?_, ?_, ?_⟩
  · simp only [Uhci.setFrames, Uhci.setPipe, store_pipes, hpipes, Function.update_idem]
  · intro f
    rw [setFrames_apply]
    simp only [Uhci.setPipe, store_frameList, hframes]
  · exact ⟨x, (store_heap_of_ne _ _ hbq).trans ((store_heap_of_ne _ _ hbq).trans
      ((store_heap_of_ne _ _ hbt).trans hbuf))⟩
  · exact ⟨_, (store_heap_of_ne _ _ hqt.symm).trans ((store_heap_of_ne _ _ hqt.symm).trans
      (store_heap_self ..))⟩
  · exact ⟨_, store_heap_self ..⟩

/- The three blocks are there: the pipe is entered, its TD gets the buffer and is placed. -/
theorem allocated_opened (v : OpenWorld) (i : Fin uhciMaxKbdPipes) (p : KbdPipe)
    {x : List UInt8} {td : Td} {qh : Qh} (hbuf : st.CanGive v.buf)
    (htd : (st.store v.buf (.buffer x)).CanGive v.td)
    (hqh : ((st.store v.buf (.buffer x)).store v.td (.td td)).CanGive v.qh) :
    ∃ st₁, placeQhEveryInterval v.frnum i ((uhciKbdRearmTd i false
        (((((st.store v.buf (.buffer x)).store v.td (.td td)).store v.qh (.qh qh)).setPipe i
          {p with buf := v.buf, td := v.td, qh := v.qh}).store v.td
            (.td ⟨0x00000001, 0, 0, v.buf⟩))).store v.qh (.qh ⟨0x00000001, v.td⟩)) = some st₁ ∧
      Opened st i (openedPipe v p) st₁ := by
  obtain ⟨hne₁, htd'⟩ := canGive_store htd
  obtain ⟨hne₂, hqh'⟩ := canGive_store hqh
  obtain ⟨hne₃, hqh''⟩ := canGive_store hqh'
  have hfresh : ∀ a ∈ [v.buf, v.td, v.qh], st.heap a = none := by
    simp [hbuf.2.2, htd'.2.2, hqh''.2.2]
  generalize hs : ((((st.store v.buf _).store v.td _).store v.qh _).setPipe i _).store v.td _ = s
  have hkeeps : Keeps st s := by
    rw [← hs]
    exact ((((Keeps.refl st).store hbuf.2.2 _).store htd'.2.2 _).store hqh''.2.2 _).store htd'.2.2 _
  have hsbuf : s.heap v.buf = some (.buffer x) := by
    rw [← hs, store_heap_of_ne _ _ hne₁.symm]
    exact (store_heap_of_ne _ _ hne₃.symm).trans
      ((store_heap_of_ne _ _ hne₁.symm).trans (store_heap_self ..))
  have hstd : s.heap v.td = some (.td ⟨0x00000001, 0, 0, v.buf⟩) := by
    rw [← hs, store_heap_self]
  have hsqh : s.heap v.qh = some (.qh qh) := by
    rw [← hs, store_heap_of_ne _ _ hne₂]
    exact store_heap_self ..
  have hframes : s.frameList = st.frameList := by rw [← hs]; rfl
  have hpipes : s.pipes =
      Function.update st.pipes i {p with buf := v.buf, td := v.td, qh := v.qh} := by
    rw [← hs]; rfl
  exact placed_opened v.frnum hkeeps hframes hpipes hfresh hsbuf hstd hsqh

theorem openPipe_cases (v : OpenWorld) (i : Fin uhciMaxKbdPipes) (p : KbdPipe) (st : Uhci)
    (htd0 : p.td = 0) (hqh0 : p.qh = 0) :
    (∃ st₁, openPipe v i p st = some (st₁, -1) ∧ OpenFailed st i st₁) ∨
    (Supplied st [v.buf, v.td, v.qh] ∧
      ∃ st₁, openPipe v i p st = some (st₁, (i.val : ℤ)) ∧ Opened st i (openedPipe v p) st₁) := by
  rcases hbuf : st.alignedAlloc v.buf (.buffer (List.replicate 8 0)) with ⟨buf, s₁⟩
  rcases htd : s₁.alignedAlloc v.td (.td {}) with ⟨td, s₂⟩
  rcases hqh : s₂.alignedAlloc v.qh (.qh {}) with ⟨qh, s₃⟩
  have g₁ : Grows st s₁ := (Grows.refl st).alignedAlloc hbuf
  have g₂ : Grows st s₂ := g₁.alignedAlloc htd
  have g₃ : Grows st s₃ := g₂.alignedAlloc hqh
  have fbuf := (Grows.refl st).answer hbuf
  have ftd := g₁.answer htd
  have fqh := g₂.answer hqh
  simp only [openPipe, hbuf, htd, hqh]
  by_cases hnobuf : buf = 0
  · refine Or.inl ⟨_, if_pos hnobuf, openFail_failed g₁ fun a ha => ?_⟩
    simp only [htd0, hqh0, List.mem_cons, List.not_mem_nil, or_false] at ha
    rcases ha with rfl | rfl | rfl
    · exact Or.inl rfl
    · exact Or.inl rfl
    · exact fbuf
  rw [if_neg hnobuf]
  by_cases hfail : td = 0 ∨ qh = 0
  · refine Or.inl ⟨_, if_pos hfail, openFail_failed g₃ fun a ha => ?_⟩
    simp only [List.mem_cons, List.not_mem_nil, or_false] at ha
    rcases ha with rfl | rfl | rfl
    · exact ftd
    · exact fqh
    · exact fbuf
  rw [if_neg hfail]
  obtain ⟨hnotd, hnoqh⟩ := not_or.mp hfail
  obtain ⟨rfl, hgbuf, rfl⟩ := alignedAlloc_of_ne_zero hbuf hnobuf
  obtain ⟨rfl, hgtd, rfl⟩ := alignedAlloc_of_ne_zero htd hnotd
  obtain ⟨rfl, hgqh, rfl⟩ := alignedAlloc_of_ne_zero hqh hnoqh
  obtain ⟨st₁, hplace, hopened⟩ := allocated_opened v i p hgbuf hgtd hgqh
  exact Or.inr ⟨supplied_cons hgbuf (supplied_cons hgtd (supplied_singleton hgqh)), st₁,
    congrArg (Option.map fun st => (st, (i.val : ℤ))) hplace, hopened⟩

/-- What `uhci_kbd_open_interrupt_in` does. -/
theorem uhciKbdOpenInterruptIn_cases (v : OpenWorld) (ioBase : UInt16)
    (devAddr endpointAddress intervalFrames : UInt8) (wMaxPacket : UInt16) (keyboardDevIndex : ℤ)
    (st : Uhci) :
    ∃ st₁ r, uhciKbdOpenInterruptIn v ioBase devAddr endpointAddress intervalFrames wMaxPacket
      keyboardDevIndex st = some (st₁, r) ∧
    (st₁ = st ∨ ∃ i, freePipe st = some i ∧
      (OpenFailed st i st₁ ∨ Supplied st [v.buf, v.td, v.qh] ∧ Opened st i (openedPipe v
        (newPipe ioBase devAddr endpointAddress intervalFrames keyboardDevIndex)) st₁)) := by
  unfold uhciKbdOpenInterruptIn
  cases hfree : freePipe st with
  | none => exact ⟨st, -1, rfl, Or.inl rfl⟩
  | some i =>
    rcases openPipe_cases v i
      (newPipe ioBase devAddr endpointAddress intervalFrames keyboardDevIndex) st rfl rfl with
      ⟨st₁, he, hfail⟩ | ⟨hsupp, st₁, he, hopen⟩
    · exact ⟨st₁, -1, he, Or.inr ⟨i, rfl, Or.inl hfail⟩⟩
    · exact ⟨st₁, i.val, he, Or.inr ⟨i, rfl, Or.inr ⟨hsupp, hopen⟩⟩⟩

structure Closed (st : Uhci) (i : Fin uhciMaxKbdPipes) (p : KbdPipe) (st₁ : Uhci) : Prop where
  heap : ∀ a, a ≠ p.td → a ≠ p.qh → a ≠ p.buf → st₁.heap a = st.heap a
  pipes : st₁.pipes = Function.update st.pipes i {}
  frames : ∀ f, st₁.frameList f = if f ∈ scheduleSlots p then terminate else st.frameList f

theorem uhciKbdClose_used (i : Fin uhciMaxKbdPipes) (st : Uhci) (huse : (st.pipes i).inUse) :
    ∃ st₁, uhciKbdClose (i.val : ℤ) st = some st₁ ∧ Closed st i (st.pipes i) st₁ := by
  have hrange : 0 ≤ (i.val : ℤ) ∧ (i.val : ℤ) < uhciMaxKbdPipes := by omega
  have hi : (⟨(i.val : ℤ).toNat, by omega⟩ : Fin uhciMaxKbdPipes) = i :=
    Fin.ext (Int.toNat_natCast i.val)
  rw [uhciKbdClose, dif_pos hrange]
  dsimp only
  rw [hi, huse, writeSchedule_eq]
  refine ⟨_, rfl, ?_, ?_, ?_⟩
  · intro a htd hqh hbuf
    exact (alignedFree_heap_of_ne _ hbuf).trans
      ((alignedFree_heap_of_ne _ hqh).trans (alignedFree_heap_of_ne _ htd))
  · simp only [Uhci.setPipe, alignedFree_pipes, Uhci.setFrames]
  · intro f
    simp only [Uhci.setPipe, alignedFree_frameList]
    exact setFrames_apply ..

/-- What `uhci_kbd_close` does. -/
theorem uhciKbdClose_cases (pipeId : ℤ) (st : Uhci) :
    ∃ st₁, uhciKbdClose pipeId st = some st₁ ∧
      (st₁ = st ∨ ∃ i, (st.pipes i).inUse ∧ Closed st i (st.pipes i) st₁) := by
  by_cases hrange : 0 ≤ pipeId ∧ pipeId < uhciMaxKbdPipes
  · obtain ⟨i, rfl⟩ : ∃ i : Fin uhciMaxKbdPipes, pipeId = (i.val : ℤ) :=
      ⟨⟨pipeId.toNat, by omega⟩, (Int.toNat_of_nonneg hrange.1).symm⟩
    cases huse : (st.pipes i).inUse with
    | false =>
      refine ⟨st, ?_, Or.inl rfl⟩
      rw [uhciKbdClose, dif_pos hrange]
      simp [huse]
    | true =>
      obtain ⟨st₁, hclose, hclosed⟩ := uhciKbdClose_used i st huse
      exact ⟨st₁, hclose, Or.inr ⟨i, huse, hclosed⟩⟩
  · exact ⟨st, dif_neg hrange, Or.inl rfl⟩

end Pipes

end CasseOS.Usb
