import CasseOS.Usb.Schedule

/-! # The blocks of a control transfer

The five helpers free different blocks on different exits. A call that gets its
setup packet gives every block back only if it is `SET_ADDRESS` and comes to its
last exits, or the read of the full configuration. -/

namespace CasseOS.Usb

variable {st st₁ : Uhci} {a : Addr} {o : Object} {w : TransferWorld} {req : Request}

inductive ControlCall where
  | setDeviceAddress (ioBase : UInt16) (newAddress : UInt8)
  | getDeviceDescriptor (addr : UInt8) (devDesc : Addr)
  | getConfigurationDescriptor (addr : UInt8) (cfg : Addr)
  | getFullConfigurationDescriptor (addr : UInt8) (buf : Addr) (totalLen : UInt16)
  | setConfiguration (addr cfgVal : UInt8)

namespace ControlCall

def run (w : TransferWorld) (st : Uhci) : ControlCall → Uhci × ℤ
  | setDeviceAddress ioBase newAddress => uhciSetDeviceAddress w ioBase newAddress st
  | getDeviceDescriptor addr devDesc => uhciGetDeviceDescriptor w addr devDesc st
  | getConfigurationDescriptor addr cfg => uhciGetConfigurationDescriptor w addr cfg st
  | getFullConfigurationDescriptor addr buf totalLen =>
    uhciGetFullConfigurationDescriptor w addr buf totalLen st
  | setConfiguration addr cfgVal => uhciSetConfiguration w addr cfgVal st

def request : ControlCall → Request
  | setDeviceAddress _ newAddress => setAddressRequest newAddress
  | getDeviceDescriptor addr devDesc => descriptorRequest addr usbDescTypeDevice 18 devDesc
  | getConfigurationDescriptor addr cfg => descriptorRequest addr usbDescTypeConfiguration 9 cfg
  | getFullConfigurationDescriptor addr buf totalLen =>
    descriptorRequest addr usbDescTypeConfiguration totalLen buf
  | setConfiguration addr cfgVal => setConfigurationRequest addr cfgVal

end ControlCall

/-! ### The blocks a call obtains -/

/- Requests to the heap, one after the other: the blocks it gives. -/
def obtained : Uhci → List (Addr × Object) → List Addr
  | _, [] => []
  | st, r :: rs => if st.CanGive r.1 then r.1 :: obtained (st.store r.1 r.2) rs else obtained st rs

def tdRequests (w : TransferWorld) (req : Request) : List (Addr × Object) :=
  if req.data.isSome then
    [(w.tdSetup, .td {}), (w.tdData, .td {}), (w.tdStatus, .td {}), (w.qh, .qh {})]
  else [(w.tdSetup, .td {}), (w.tdStatus, .td {}), (w.qh, .qh {})]

/- Without a setup packet nothing else is requested. -/
def transferObtained (w : TransferWorld) (req : Request) (st : Uhci) : List Addr :=
  if st.CanGive w.sp then
    w.sp :: obtained (st.store w.sp (.setupPacket req.packet)) (tdRequests w req)
  else []

/- Every block the call obtained has been passed to `aligned_free` once more than before. -/
def FreesAll (call : ControlCall) (w : TransferWorld) (st : Uhci) : Prop :=
  ∀ b ∈ transferObtained w call.request st,
    (call.run w st).1.frees.count b = st.frees.count b + 1

theorem alignedAlloc_gives (h : st.CanGive a) : st.alignedAlloc a o = (a, st.store a o) := if_pos h

theorem alignedAlloc_refuses (h : ¬st.CanGive a) : st.alignedAlloc a o = (0, st) := if_neg h

/- After the requests, what is live was live before or has been obtained. -/
def afterRequests (st : Uhci) (rs : List (Addr × Object)) : Uhci :=
  rs.foldl (fun st r => (st.alignedAlloc r.1 r.2).2) st

theorem afterRequests_live (rs : List (Addr × Object)) (st : Uhci) (b : Addr) :
    (afterRequests st rs).heap b ≠ none ↔ st.heap b ≠ none ∨ b ∈ obtained st rs := by
  induction rs generalizing st with
  | nil => simp [afterRequests, obtained]
  | cons r rs ih =>
    rw [afterRequests, List.foldl_cons, ← afterRequests, ih, obtained]
    by_cases hgive : st.CanGive r.1
    · rw [alignedAlloc_gives hgive, if_pos hgive, List.mem_cons]
      by_cases hb : b = r.1
      · subst hb
        simp
      · rw [store_heap_of_ne st r.2 hb]
        simp [hb]
    · rw [alignedAlloc_refuses hgive, if_neg hgive]

theorem supplied_of_cons {l : List Addr} (h : Supplied st (a :: l)) :
    st.CanGive a ∧ Supplied (st.store a o) l := by
  obtain ⟨hgive, hnodup⟩ := h
  obtain ⟨hnot, hl⟩ := List.nodup_cons.mp hnodup
  refine ⟨hgive a (List.mem_cons_self ..), ?_, hl⟩
  intro b hb
  obtain ⟨hz, h16, hnone⟩ := hgive b (List.mem_cons_of_mem a hb)
  have hne : b ≠ a := fun he => hnot (he ▸ hb)
  exact ⟨hz, h16, (store_heap_of_ne st o hne).trans hnone⟩

theorem obtained_supplied {rs : List (Addr × Object)} (h : Supplied st (rs.map Prod.fst)) :
    obtained st rs = rs.map Prod.fst := by
  induction rs generalizing st with
  | nil => rfl
  | cons r rs ih =>
    obtain ⟨hgive, hrest⟩ := supplied_of_cons (o := r.2) h
    rw [obtained, if_pos hgive, ih hrest]
    rfl

theorem transferAnswers_eq (w : TransferWorld) (req : Request) :
    transferAnswers w req = w.sp :: (tdRequests w req).map Prod.fst := by
  unfold transferAnswers tdRequests
  split <;> rfl

theorem transferObtained_supplied (h : Supplied st (transferAnswers w req)) :
    transferObtained w req st = transferAnswers w req := by
  rw [transferAnswers_eq] at h ⊢
  obtain ⟨hgive, hrest⟩ := supplied_of_cons (o := .setupPacket req.packet) h
  rw [transferObtained, if_pos hgive, obtained_supplied hrest]

/-! ### The allocations of a transfer -/

/- The state after the setup packet, the TDs and the QH were requested. -/
def requested (w : TransferWorld) (req : Request) (st : Uhci) : Uhci :=
  afterRequests (st.store w.sp (.setupPacket req.packet)) (tdRequests w req)

/- The transfer of a call that gets all its blocks. -/
def suppliedTransfer (w : TransferWorld) (req : Request) : Transfer :=
  ⟨w.sp, w.tdSetup, if req.data.isSome then w.tdData else 0, w.tdStatus, w.qh⟩

theorem allocateTransfer_supplied (h : Supplied st (transferAnswers w req)) :
    allocateTransfer w req st = (some (suppliedTransfer w req),
      linkTransfer req (suppliedTransfer w req) (requested w req st)) := by
  rw [transferAnswers_eq] at h
  obtain ⟨gsp, hrest⟩ := supplied_of_cons (o := .setupPacket req.packet) h
  unfold allocateTransfer requested
  unfold tdRequests at hrest ⊢
  dsimp only
  rw [alignedAlloc_gives gsp, if_neg gsp.1]
  cases hd : req.data with
  | none =>
    rw [hd] at hrest
    obtain ⟨gsetup, hrest⟩ := supplied_of_cons (o := .td {}) hrest
    obtain ⟨gstatus, hrest⟩ := supplied_of_cons (o := .td {}) hrest
    obtain ⟨gqh, -⟩ := supplied_of_cons (o := .qh {}) hrest
    simp only [Option.isSome_none, Bool.false_eq_true, false_and, if_false, alignedAlloc_gives gsetup,
      alignedAlloc_gives gstatus, alignedAlloc_gives gqh, gsetup.1, gstatus.1, gqh.1, false_or,
      suppliedTransfer, hd, afterRequests, List.foldl_cons, List.foldl_nil]
  | some d =>
    rw [hd] at hrest
    obtain ⟨gsetup, hrest⟩ := supplied_of_cons (o := .td {}) hrest
    obtain ⟨gdata, hrest⟩ := supplied_of_cons (o := .td {}) hrest
    obtain ⟨gstatus, hrest⟩ := supplied_of_cons (o := .td {}) hrest
    obtain ⟨gqh, -⟩ := supplied_of_cons (o := .qh {}) hrest
    simp only [Option.isSome_some, true_and, if_true, alignedAlloc_gives gsetup,
      alignedAlloc_gives gdata, alignedAlloc_gives gstatus, alignedAlloc_gives gqh, gsetup.1, gdata.1,
      gstatus.1, gqh.1, false_or, if_false, suppliedTransfer, hd, afterRequests, List.foldl_cons,
      List.foldl_nil]

theorem allocateTransfer_not_supplied (h : ¬Supplied st (transferAnswers w req)) :
    allocateTransfer w req st = (none, if st.CanGive w.sp then requested w req st else st) := by
  obtain ⟨s, hs, -⟩ | ⟨hsupp, -⟩ := allocateTransfer_cases w req st
  · rw [hs]
    unfold allocateTransfer at hs
    dsimp only at hs
    by_cases hsp : st.CanGive w.sp
    · rw [alignedAlloc_gives hsp, if_neg hsp.1] at hs
      rw [if_pos hsp, requested, tdRequests]
      cases hd : req.data with
      | none =>
        simp only [hd, Option.isSome_none, Bool.false_eq_true, false_and, if_false] at hs
        split at hs
        · exact hs.symm
        · cases (Prod.mk.inj hs).1
      | some d =>
        simp only [hd, Option.isSome_some, true_and, if_true] at hs
        split at hs
        · exact hs.symm
        · cases (Prod.mk.inj hs).1
    · rw [alignedAlloc_refuses hsp, if_pos rfl] at hs
      rw [if_neg hsp]
      exact hs.symm
  · exact absurd hsupp h

theorem store_live (h : st.heap a ≠ none) (b : Addr) :
    (st.store a o).heap b ≠ none ↔ st.heap b ≠ none := by
  by_cases hb : b = a
  · subst hb
    simp [h]
  · rw [store_heap_of_ne st o hb]

/- Linking writes into the blocks of the transfer only. -/
theorem linkTransfer_live (h : ∀ a ∈ transferAnswers w req, st.heap a ≠ none) (b : Addr) :
    (linkTransfer req (suppliedTransfer w req) st).heap b ≠ none ↔ st.heap b ≠ none := by
  unfold linkTransfer suppliedTransfer
  unfold transferAnswers at h
  cases hd : req.data with
  | none =>
    rw [hd] at h
    have hsetup := fun b => store_live (o := .td ⟨w.tdStatus ||| 0x04, 0x800000, req.setupToken, w.sp⟩)
      (h w.tdSetup (by simp)) b
    have hstatus := fun b => (store_live (o := .td (terminatedTd req.statusToken))
      ((hsetup _).mpr (h w.tdStatus (by simp))) b).trans (hsetup b)
    exact (store_live ((hstatus _).mpr (h w.qh (by simp))) b).trans (hstatus b)
  | some d =>
    rw [hd] at h
    have hsetup := fun b => store_live (o := .td ⟨w.tdData ||| 0x04, 0x800000, req.setupToken, w.sp⟩)
      (h w.tdSetup (by simp)) b
    have hdata := fun b => (store_live (o := .td ⟨w.tdStatus ||| 0x04, 0x800000, d.1, d.2⟩)
      ((hsetup _).mpr (h w.tdData (by simp))) b).trans (hsetup b)
    have hstatus := fun b => (store_live (o := .td (terminatedTd req.statusToken))
      ((hdata _).mpr (h w.tdStatus (by simp))) b).trans (hdata b)
    exact (store_live ((hstatus _).mpr (h w.qh (by simp))) b).trans (hstatus b)

theorem requested_live (b : Addr) (h : st.CanGive w.sp) :
    (requested w req st).heap b ≠ none ↔ st.heap b ≠ none ∨ b ∈ transferObtained w req st := by
  rw [requested, afterRequests_live, transferObtained, if_pos h, List.mem_cons]
  by_cases hb : b = w.sp
  · subst hb
    simp
  · rw [store_heap_of_ne st _ hb]
    simp [hb]

/- The blocks that are live after the allocations of a transfer are those that
were live before and those it obtained. -/
theorem allocateTransfer_live (w : TransferWorld) (req : Request) (st : Uhci) (b : Addr) :
    (allocateTransfer w req st).2.heap b ≠ none ↔
      st.heap b ≠ none ∨ b ∈ transferObtained w req st := by
  by_cases hsupp : Supplied st (transferAnswers w req)
  · have hsp : st.CanGive w.sp := hsupp.1 w.sp (by rw [transferAnswers_eq]; exact List.mem_cons_self ..)
    have hlive : ∀ a ∈ transferAnswers w req, (requested w req st).heap a ≠ none := by
      intro a ha
      rw [requested_live a hsp, transferObtained_supplied hsupp]
      exact Or.inr ha
    rw [allocateTransfer_supplied hsupp, ← requested_live b hsp]
    exact linkTransfer_live hlive b
  · rw [allocateTransfer_not_supplied hsupp]
    by_cases hsp : st.CanGive w.sp
    · rw [if_pos hsp]
      exact requested_live b hsp
    · rw [if_neg hsp, transferObtained, if_neg hsp]
      simp

/-! ### Allocation frees nothing -/

theorem alignedAlloc_frees (st : Uhci) (a : Addr) (o : Object) :
    (st.alignedAlloc a o).2.frees = st.frees := by
  obtain ⟨-, he⟩ | he := alignedAlloc_cases st a o <;> rw [he]
  rfl

theorem requested_frees (w : TransferWorld) (req : Request) (st : Uhci) :
    (requested w req st).frees = st.frees := by
  have hrun : ∀ (rs : List (Addr × Object)) (s : Uhci), (afterRequests s rs).frees = s.frees := by
    intro rs
    induction rs with
    | nil => exact fun _ => rfl
    | cons r rs ih => exact fun s => (ih _).trans (alignedAlloc_frees s r.1 r.2)
  exact hrun _ _

theorem linkTransfer_frees (req : Request) (t : Transfer) (st : Uhci) :
    (linkTransfer req t st).frees = st.frees := by
  unfold linkTransfer
  split <;> rfl

/-! ### The exits -/

theorem alignedFree_frees (h : a ≠ 0) : (st.alignedFree a).frees = st.frees ++ [a] := by
  rw [Uhci.alignedFree, if_neg h]

theorem freeAll_frees {l : List Addr} (h : ∀ a ∈ l, a ≠ 0) :
    (st.freeAll l).frees = st.frees ++ l := by
  induction l generalizing st with
  | nil => simp [Uhci.freeAll]
  | cons a l ih =>
    rw [Uhci.freeAll, List.foldl_cons, ← Uhci.freeAll, ih fun b hb => h b (List.mem_cons_of_mem a hb),
      alignedFree_frees (h a (List.mem_cons_self ..)), List.append_assoc]
    rfl

/- What a call that gets all its blocks frees. -/
def ControlCall.freed (w : TransferWorld) : ControlCall → List Addr
  | setDeviceAddress .. =>
    if w.usbcmd &&& 0x01 = 0 ∨ uhciWaitForTransferComplete w.polled ≠ 1 then []
    else [w.tdSetup, w.tdStatus, w.qh, w.sp]
  | getDeviceDescriptor .. =>
    if uhciWaitForTransferComplete w.polled ≠ 1 then []
    else [w.tdSetup, w.tdData, w.tdStatus, w.qh]
  | getConfigurationDescriptor .. => [w.tdSetup, w.tdData, w.tdStatus, w.qh]
  | getFullConfigurationDescriptor .. => [w.tdSetup, w.tdData, w.tdStatus, w.qh, w.sp]
  | setConfiguration .. =>
    if uhciWaitForTransferComplete w.polled ≠ 1 then [] else [w.tdSetup, w.tdStatus, w.qh]

theorem ControlCall.run_not_supplied {call : ControlCall}
    (h : ¬Supplied st (transferAnswers w call.request)) : (call.run w st).1.frees = st.frees := by
  have halloc := allocateTransfer_not_supplied h
  have hfrees : (if st.CanGive w.sp then requested w call.request st else st).frees = st.frees := by
    split
    · exact requested_frees w call.request st
    · rfl
  cases call <;>
    simp only [run, request, uhciSetDeviceAddress, uhciGetDeviceDescriptor,
      uhciGetConfigurationDescriptor, uhciGetFullConfigurationDescriptor, uhciSetConfiguration]
      at halloc hfrees ⊢ <;>
    rw [halloc] <;> exact hfrees

section Exits
variable {t : Transfer} {s : Uhci}

theorem uhciSetDeviceAddress_frees {newAddress : UInt8} (ioBase : UInt16)
    (halloc : allocateTransfer w (setAddressRequest newAddress) st = (some t, s))
    (hl : ∀ a ∈ [t.tdSetup, t.tdStatus, t.qh, t.sp], a ≠ 0) :
    (uhciSetDeviceAddress w ioBase newAddress st).1.frees = s.frees ++
      if w.usbcmd &&& 0x01 = 0 ∨ uhciWaitForTransferComplete w.polled ≠ 1 then []
      else [t.tdSetup, t.tdStatus, t.qh, t.sp] := by
  unfold uhciSetDeviceAddress
  rw [halloc]
  dsimp only
  by_cases hcmd : w.usbcmd &&& 0x01 = 0
  · rw [if_pos hcmd, if_pos (Or.inl hcmd), List.append_nil]
    rfl
  by_cases hwait : uhciWaitForTransferComplete w.polled ≠ 1
  · rw [if_neg hcmd, if_pos hwait, if_pos (Or.inr hwait), List.append_nil]
    rfl
  rw [if_neg hcmd, if_neg hwait, if_neg (not_or.mpr ⟨hcmd, hwait⟩)]
  -- clearing USBERRINT frees nothing, and the two last exits free the same blocks
  split <;> split <;> exact freeAll_frees hl

theorem uhciGetDeviceDescriptor_frees {addr : UInt8} {devDesc : Addr}
    (halloc : allocateTransfer w (descriptorRequest addr usbDescTypeDevice 18 devDesc) st = (some t, s))
    (hl : ∀ a ∈ [t.tdSetup, t.tdData, t.tdStatus, t.qh], a ≠ 0) :
    (uhciGetDeviceDescriptor w addr devDesc st).1.frees = s.frees ++
      if uhciWaitForTransferComplete w.polled ≠ 1 then []
      else [t.tdSetup, t.tdData, t.tdStatus, t.qh] := by
  unfold uhciGetDeviceDescriptor
  rw [halloc]
  dsimp only
  by_cases hwait : uhciWaitForTransferComplete w.polled ≠ 1
  · rw [if_pos hwait, if_pos hwait, List.append_nil]
    rfl
  rw [if_neg hwait, if_neg hwait]
  split <;> exact freeAll_frees hl

theorem uhciGetConfigurationDescriptor_frees {addr : UInt8} {cfg : Addr}
    (halloc : allocateTransfer w (descriptorRequest addr usbDescTypeConfiguration 9 cfg) st = (some t, s))
    (hl : ∀ a ∈ [t.tdSetup, t.tdData, t.tdStatus, t.qh], a ≠ 0) :
    (uhciGetConfigurationDescriptor w addr cfg st).1.frees =
      s.frees ++ [t.tdSetup, t.tdData, t.tdStatus, t.qh] := by
  unfold uhciGetConfigurationDescriptor
  rw [halloc]
  dsimp only
  split <;> exact freeAll_frees hl

theorem uhciGetFullConfigurationDescriptor_frees {addr : UInt8} {buf : Addr} {totalLen : UInt16}
    (halloc : allocateTransfer w (descriptorRequest addr usbDescTypeConfiguration totalLen buf) st =
      (some t, s))
    (hl : ∀ a ∈ [t.tdSetup, t.tdData, t.tdStatus, t.qh, t.sp], a ≠ 0) :
    (uhciGetFullConfigurationDescriptor w addr buf totalLen st).1.frees =
      s.frees ++ [t.tdSetup, t.tdData, t.tdStatus, t.qh, t.sp] := by
  unfold uhciGetFullConfigurationDescriptor
  rw [halloc]
  dsimp only
  split <;> exact freeAll_frees hl

theorem uhciSetConfiguration_frees {addr cfgVal : UInt8}
    (halloc : allocateTransfer w (setConfigurationRequest addr cfgVal) st = (some t, s))
    (hl : ∀ a ∈ [t.tdSetup, t.tdStatus, t.qh], a ≠ 0) :
    (uhciSetConfiguration w addr cfgVal st).1.frees = s.frees ++
      if uhciWaitForTransferComplete w.polled ≠ 1 then [] else [t.tdSetup, t.tdStatus, t.qh] := by
  unfold uhciSetConfiguration
  rw [halloc]
  dsimp only
  by_cases hwait : uhciWaitForTransferComplete w.polled ≠ 1
  · rw [if_pos hwait, if_pos hwait, List.append_nil]
    rfl
  rw [if_neg hwait, if_neg hwait]
  split <;> exact freeAll_frees hl

end Exits

/- Every exit of every helper, once the blocks are there. -/
theorem ControlCall.run_supplied {call : ControlCall}
    (h : Supplied st (transferAnswers w call.request)) :
    (call.run w st).1.frees = st.frees ++ call.freed w := by
  have halloc := allocateTransfer_supplied h
  have hne : ∀ a ∈ transferAnswers w call.request, a ≠ 0 := fun a ha => (h.1 a ha).1
  have hlinked : (linkTransfer call.request (suppliedTransfer w call.request)
      (requested w call.request st)).frees = st.frees :=
    (linkTransfer_frees ..).trans (requested_frees w call.request st)
  rw [← hlinked]
  cases call with
  | setDeviceAddress ioBase newAddress =>
    have hl : ∀ a ∈ [w.tdSetup, w.tdStatus, w.qh, w.sp], a ≠ 0 := by
      simpa [transferAnswers, request, setAddressRequest, and_assoc, and_comm, and_left_comm] using hne
    exact uhciSetDeviceAddress_frees ioBase halloc hl
  | getDeviceDescriptor addr devDesc =>
    exact uhciGetDeviceDescriptor_frees halloc fun a ha => hne a (List.mem_cons_of_mem w.sp ha)
  | getConfigurationDescriptor addr cfg =>
    exact uhciGetConfigurationDescriptor_frees halloc fun a ha => hne a (List.mem_cons_of_mem w.sp ha)
  | getFullConfigurationDescriptor addr buf totalLen =>
    have hl : ∀ a ∈ [w.tdSetup, w.tdData, w.tdStatus, w.qh, w.sp], a ≠ 0 := by
      simpa [transferAnswers, request, descriptorRequest, and_assoc, and_comm, and_left_comm]
        using hne
    exact uhciGetFullConfigurationDescriptor_frees halloc hl
  | setConfiguration addr cfgVal =>
    exact uhciSetConfiguration_frees halloc fun a ha => hne a (List.mem_cons_of_mem w.sp ha)

/-! ### Leaks -/

/- The call comes to an exit that frees every block. -/
def ControlCall.CleansUp (w : TransferWorld) : ControlCall → Prop
  | setDeviceAddress .. => w.usbcmd &&& 0x01 ≠ 0 ∧ uhciWaitForTransferComplete w.polled = 1
  | getFullConfigurationDescriptor .. => True
  | _ => False

theorem ControlCall.freed_perm {call : ControlCall} (h : call.CleansUp w) :
    (call.freed w).Perm (transferAnswers w call.request) := by
  cases call with
  | setDeviceAddress ioBase newAddress =>
    rw [freed, if_neg (not_or.mpr ⟨h.1, not_not.mpr h.2⟩)]
    exact List.perm_append_singleton w.sp [w.tdSetup, w.tdStatus, w.qh]
  | getFullConfigurationDescriptor addr buf totalLen =>
    exact List.perm_append_singleton w.sp [w.tdSetup, w.tdData, w.tdStatus, w.qh]
  | getDeviceDescriptor | getConfigurationDescriptor | setConfiguration => exact h.elim

/- On every other exit the setup packet stays. -/
theorem ControlCall.freed_sp {call : ControlCall} (h : ¬call.CleansUp w)
    (hnodup : (transferAnswers w call.request).Nodup) : w.sp ∉ call.freed w := by
  have hsp : w.sp ∉ (tdRequests w call.request).map Prod.fst := by
    rw [transferAnswers_eq] at hnodup
    exact (List.nodup_cons.mp hnodup).1
  cases call with
  | setDeviceAddress ioBase newAddress =>
    rw [freed, if_pos]
    · exact List.not_mem_nil
    · by_contra hnot
      rw [not_or, not_not] at hnot
      exact h hnot
  | getDeviceDescriptor addr devDesc =>
    rw [freed]
    split
    · exact List.not_mem_nil
    · exact hsp
  | getConfigurationDescriptor addr cfg => exact hsp
  | getFullConfigurationDescriptor addr buf totalLen => exact absurd trivial h
  | setConfiguration addr cfgVal =>
    rw [freed]
    split
    · exact List.not_mem_nil
    · exact hsp

/-- A call gives back what it obtained exactly when it obtained nothing, or got
all its blocks and comes to an exit that frees them all. -/
theorem freesAll_iff (call : ControlCall) (w : TransferWorld) (st : Uhci) :
    FreesAll call w st ↔ ¬st.CanGive w.sp ∨
      (Supplied st (transferAnswers w call.request) ∧ call.CleansUp w) := by
  unfold FreesAll
  by_cases hsp : st.CanGive w.sp
  · have hmem : w.sp ∈ transferObtained w call.request st := by
      rw [transferObtained, if_pos hsp]
      exact List.mem_cons_self ..
    by_cases hsupp : Supplied st (transferAnswers w call.request)
    · rw [ControlCall.run_supplied hsupp, transferObtained_supplied hsupp]
      by_cases hclean : call.CleansUp w
      · refine iff_of_true ?_ (Or.inr ⟨hsupp, hclean⟩)
        intro b hb
        rw [List.count_append, (ControlCall.freed_perm hclean).count_eq,
          List.count_eq_one_of_mem hsupp.2 hb]
      · refine iff_of_false ?_ (by simp [hsp, hclean])
        intro hall
        have hcount := hall w.sp (by rw [transferAnswers_eq]; exact List.mem_cons_self ..)
        rw [List.count_append, List.count_eq_zero.mpr (ControlCall.freed_sp hclean hsupp.2)] at hcount
        omega
    · rw [ControlCall.run_not_supplied hsupp]
      refine iff_of_false ?_ (by simp [hsp, hsupp])
      intro hall
      have hcount := hall w.sp hmem
      omega
  · refine iff_of_true ?_ (Or.inl hsp)
    intro b hb
    rw [transferObtained, if_neg hsp] at hb
    exact absurd hb List.not_mem_nil

/- The device descriptor is read and the setup packet at `0x1010` stays. -/
theorem device_descriptor_leaks :
    ¬FreesAll (.getDeviceDescriptor 1 0x90000) (transferAt 0 0)
      (uhciInitializeFrameList fun _ => none) := by
  intro h
  have hcount := h 0x1010 (by decide +kernel)
  exact absurd hcount (by decide +kernel)

end CasseOS.Usb
