import CasseOS.Usb.BlobReads
import CasseOS.Usb.Leaks

/-! # Stale bytes in the configuration blob

The block for the configuration is not cleared, and the device may send less
than it was asked for; what it does not send is what the block held before. Two
enumerations that differ in that are compared here. -/

namespace CasseOS.Usb
open Reading

/-! ### The fetch -/

/- The length field of a token: `0x7FF` asks for nothing. -/
def tokenRoom (token : UInt32) : ℕ :=
  let n := (token >>> 21).toNat
  if n = 0x7FF then 0 else n + 1

/- How many of the bytes that the device sends the data stage takes. -/
def received (req : Request) (sent : Bytes) : ℕ :=
  min sent.length ((req.data.map fun d => tokenRoom d.1).getD 0)

/- The memory from the buffer on after the data stage. -/
def memoryAfter (req : Request) (sent : Bytes) (before : ℕ → UInt8) : ℕ → UInt8 := fun i =>
  if i < received req sent then byteAt sent i else before i

namespace EnumCall

def blobRequest (c : EnumCall) : Request :=
  descriptorRequest c.address usbDescTypeConfiguration c.world.totalLength c.world.blob

/- The call with a device that sends `sent` to the read of the full configuration,
into a block that held `before`. -/
def withBlob (c : EnumCall) (sent : Bytes) (before : ℕ → UInt8) : EnumCall :=
  {c with world := {c.world with blobBytes := memoryAfter c.blobRequest sent before}}

/- How many checks of `uhci_enumerate_device` the call passes; the last one tells
whether a keyboard has its pipe. -/
def returnPath (c : EnumCall) (st : UsbStack) : ℕ :=
  if maxUsbDevices ≤ st.deviceCount then 0
  else if portReady c.world.portStatus = false then 1
  else if (c.setAddress st).2 = 0 then 2
  else 3 + Run.passed (enumSteps c.world c.ioBase st.deviceCount.toNat) (c.claimed st)

end EnumCall

/- The block has `blockLen` bytes, which may differ. -/
def AgreeOutside (blockLen : ℕ) (before before' : ℕ → UInt8) : Prop :=
  ∀ i, blockLen ≤ i → before' i = before i

/- The entry, the return path and the keyboards do not depend on the old contents
of the block. -/
def Independent (c : EnumCall) (sent : Bytes) (blockLen : ℕ) (before : ℕ → UInt8) (st : UsbStack) :
    Prop :=
  ∀ before', AgreeOutside blockLen before before' →
    let r := (c.withBlob sent before).run st
    let r' := (c.withBlob sent before').run st
    r'.1.devices st.deviceCount.toNat = r.1.devices st.deviceCount.toNat ∧
      (c.withBlob sent before').returnPath st = (c.withBlob sent before).returnPath st ∧
      r'.1.keyboards = r.1.keyboards

/-! ### States that differ in one block -/

/- Equal but for what the live block at `b` holds. -/
structure SameBut (b : Addr) (st st' : Uhci) : Prop where
  frameList : st'.frameList = st.frameList
  frees : st'.frees = st.frees
  portsOut : st'.portsOut = st.portsOut
  pipes : st'.pipes = st.pipes
  heap : ∀ a, a ≠ b → st'.heap a = st.heap a
  live : st.heap b ≠ none
  live' : st'.heap b ≠ none

section SameBut
variable {b a : Addr} {st st' : Uhci} {o : Object} {w : TransferWorld} {req : Request}

theorem SameBut.canGive_iff (h : SameBut b st st') (a : Addr) : st'.CanGive a ↔ st.CanGive a := by
  unfold Uhci.CanGive
  by_cases ha : a = b
  · subst ha
    exact iff_of_false (fun hg => h.live' hg.2.2) fun hg => h.live hg.2.2
  · rw [h.heap a ha]

theorem SameBut.ne (h : SameBut b st st') (ha : st.CanGive a) : a ≠ b := by
  rintro rfl
  exact h.live ha.2.2

theorem SameBut.store (h : SameBut b st st') (ha : a ≠ b) : SameBut b (st.store a o) (st'.store a o) := by
  refine ⟨h.frameList, h.frees, h.portsOut, h.pipes, ?_, ?_, ?_⟩
  · intro x hx
    by_cases hxa : x = a
    · subst hxa
      rw [store_heap_self, store_heap_self]
    · rw [store_heap_of_ne _ _ hxa, store_heap_of_ne _ _ hxa, h.heap x hx]
  · rw [store_heap_of_ne _ _ ha.symm]
    exact h.live
  · rw [store_heap_of_ne _ _ ha.symm]
    exact h.live'

theorem SameBut.alignedFree (h : SameBut b st st') (ha : a ≠ b) :
    SameBut b (st.alignedFree a) (st'.alignedFree a) := by
  unfold Uhci.alignedFree
  split
  · exact h
  · refine ⟨h.frameList, congrArg (· ++ [a]) h.frees, h.portsOut, h.pipes, ?_, ?_, ?_⟩
    · intro x hx
      by_cases hxa : x = a
      · subst hxa
        simp
      · simp only [Function.update_of_ne hxa]
        exact h.heap x hx
    · simp only [Function.update_of_ne ha.symm]
      exact h.live
    · simp only [Function.update_of_ne ha.symm]
      exact h.live'

theorem SameBut.freeAll {l : List Addr} (h : SameBut b st st') (hl : ∀ a ∈ l, a ≠ b) :
    SameBut b (st.freeAll l) (st'.freeAll l) := by
  induction l generalizing st st' with
  | nil => exact h
  | cons a l ih =>
    exact ih (h.alignedFree (hl a (List.mem_cons_self ..))) fun x hx =>
      hl x (List.mem_cons_of_mem a hx)

theorem SameBut.setFrames (h : SameBut b st st') (slots : List Slot) (word : UInt32) :
    SameBut b (st.setFrames slots word) (st'.setFrames slots word) := by
  refine ⟨?_, h.frees, h.portsOut, h.pipes, h.heap, h.live, h.live'⟩
  unfold Uhci.setFrames
  rw [h.frameList]

/- Nothing of the difference is left when the block is freed. -/
theorem SameBut.freed (h : SameBut b st st') (hb : b ≠ 0) : st'.alignedFree b = st.alignedFree b := by
  have hheap : Function.update st'.heap b none = Function.update st.heap b none := by
    funext x
    by_cases hx : x = b
    · subst hx
      simp
    · rw [Function.update_of_ne hx, Function.update_of_ne hx, h.heap x hx]
  obtain ⟨hframes, hfrees, hports, hpipes, -, -, -⟩ := h
  unfold Uhci.alignedFree
  rw [if_neg hb, if_neg hb, hheap, hfrees, hframes, hports, hpipes]

theorem SameBut.alignedAlloc (h : SameBut b st st') (a : Addr) (o : Object) :
    SameBut b (st.alignedAlloc a o).2 (st'.alignedAlloc a o).2 := by
  by_cases hgive : st.CanGive a
  · rw [alignedAlloc_gives hgive, alignedAlloc_gives ((h.canGive_iff a).mpr hgive)]
    exact h.store (h.ne hgive)
  · rw [alignedAlloc_refuses hgive, alignedAlloc_refuses fun hg => hgive ((h.canGive_iff a).mp hg)]
    exact h

theorem SameBut.afterRequests (h : SameBut b st st') (rs : List (Addr × Object)) :
    SameBut b (afterRequests st rs) (afterRequests st' rs) := by
  induction rs generalizing st st' with
  | nil => exact h
  | cons r rs ih => exact ih (h.alignedAlloc r.1 r.2)

theorem SameBut.supplied_iff (h : SameBut b st st') (l : List Addr) :
    Supplied st' l ↔ Supplied st l := by
  unfold Supplied
  simp only [h.canGive_iff]

theorem SameBut.requested (h : SameBut b st st') (hsp : st.CanGive w.sp) :
    SameBut b (requested w req st) (requested w req st') :=
  (h.store (h.ne hsp)).afterRequests _

theorem SameBut.linkTransfer (h : SameBut b st st') (hl : ∀ a ∈ transferAnswers w req, a ≠ b) :
    SameBut b (linkTransfer req (suppliedTransfer w req) st)
      (linkTransfer req (suppliedTransfer w req) st') := by
  unfold Usb.linkTransfer suppliedTransfer
  unfold transferAnswers at hl
  cases hd : req.data with
  | none =>
    rw [hd] at hl
    exact ((h.store (hl _ (by simp))).store (hl _ (by simp))).store (hl _ (by simp))
  | some d =>
    rw [hd] at hl
    exact (((h.store (hl _ (by simp))).store (hl _ (by simp))).store (hl _ (by simp))).store
      (hl _ (by simp))

/- The read of the full configuration does not look into the block it fills. -/
theorem SameBut.getFullConfiguration (h : SameBut b st st') (addr : UInt8) (buf : Addr)
    (totalLen : UInt16) :
    (uhciGetFullConfigurationDescriptor w addr buf totalLen st').2 =
        (uhciGetFullConfigurationDescriptor w addr buf totalLen st).2 ∧
      SameBut b (uhciGetFullConfigurationDescriptor w addr buf totalLen st).1
        (uhciGetFullConfigurationDescriptor w addr buf totalLen st').1 := by
  unfold uhciGetFullConfigurationDescriptor
  generalize hreq : descriptorRequest addr usbDescTypeConfiguration totalLen buf = req
  by_cases hsupp : Supplied st (transferAnswers w req)
  · rw [allocateTransfer_supplied hsupp, allocateTransfer_supplied ((h.supplied_iff _).mpr hsupp)]
    have hdata : req.data.isSome = true := by
      rw [← hreq]
      rfl
    have hanswers : transferAnswers w req = [w.sp, w.tdSetup, w.tdData, w.tdStatus, w.qh] :=
      if_pos hdata
    have hne : ∀ a ∈ transferAnswers w req, a ≠ b := fun a ha => h.ne (hsupp.1 a ha)
    have hsp : st.CanGive w.sp := hsupp.1 w.sp (by rw [hanswers]; exact List.mem_cons_self ..)
    have hrequested : SameBut b (Usb.requested w req st) (Usb.requested w req st') := h.requested hsp
    have hlinked := hrequested.linkTransfer hne
    have htd : (suppliedTransfer w req).tdData = w.tdData := if_pos hdata
    have hl : ∀ a ∈ [w.tdSetup, (suppliedTransfer w req).tdData, w.tdStatus, w.qh, w.sp], a ≠ b := by
      intro a ha
      refine hne a ?_
      rw [htd] at ha
      rw [hanswers]
      simp only [List.mem_cons, List.not_mem_nil, or_false] at ha ⊢
      tauto
    dsimp only
    split
    · exact ⟨rfl, (hlinked.setFrames _ _).freeAll hl⟩
    · exact ⟨rfl, ((hlinked.setFrames _ _).setFrames _ _).freeAll hl⟩
  · rw [allocateTransfer_not_supplied hsupp,
      allocateTransfer_not_supplied fun hs => hsupp ((h.supplied_iff _).mp hs)]
    refine ⟨rfl, ?_⟩
    by_cases hsp : st.CanGive w.sp
    · rw [if_pos hsp, if_pos ((h.canGive_iff _).mpr hsp)]
      exact h.requested hsp
    · rw [if_neg hsp, if_neg fun hg => hsp ((h.canGive_iff _).mp hg)]
      exact h

end SameBut

/-! ### The steps around the parser -/

/- The blob is allocated, read and freed; whether it gets to the parser. -/
def fetchBlob (w : EnumWorld) (n : ℕ) (st : UsbStack) : Uhci × Bool :=
  if st.uhci.CanGive w.blob then
    let r := uhciGetFullConfigurationDescriptor w.getFullConfig (st.devices n).address w.blob
      w.totalLength (st.uhci.store w.blob (.buffer []))
    (r.1.alignedFree w.blob, r.2 ≠ 0)
  else (st.uhci, false)

theorem sameBut_store (st : Uhci) (a : Addr) (o o' : Object) : SameBut a (st.store a o) (st.store a o') := by
  refine ⟨rfl, rfl, rfl, rfl, ?_, ?_, ?_⟩
  · intro x hx
    rw [store_heap_of_ne _ _ hx, store_heap_of_ne _ _ hx]
  · simp
  · simp

theorem readConfiguration_eq (w : EnumWorld) (n : ℕ) (st : UsbStack) :
    readConfiguration w n st =
      if (fetchBlob w n st).2 then
        let r := usbParseConfigBlobIntoDevice w.blobBytes w.totalLength (st.devices n)
        (setDevice n r.1 {st with uhci := (fetchBlob w n st).1}, r.2)
      else ({st with uhci := (fetchBlob w n st).1}, false) := by
  unfold readConfiguration fetchBlob
  by_cases hgive : st.uhci.CanGive w.blob
  · rw [alignedAlloc_gives hgive]
    dsimp only
    rw [if_neg hgive.1]
    simp only [if_pos hgive]
    obtain ⟨hok, hsame⟩ := (sameBut_store st.uhci w.blob (.buffer [])
      (.buffer (copyBytes w.blobBytes 0 w.totalLength.toNat))).getFullConfiguration
      (w := w.getFullConfig) (st.devices n).address w.blob w.totalLength
    rw [hok, hsame.freed hgive.1]
    by_cases hzero : (uhciGetFullConfigurationDescriptor w.getFullConfig (st.devices n).address w.blob
        w.totalLength (st.uhci.store w.blob (.buffer []))).2 = 0
    · simp [hzero]
    · simp [hzero]
  · rw [alignedAlloc_refuses hgive]
    simp only [if_neg hgive]
    rfl

namespace EnumCall
variable (c : EnumCall) (st : UsbStack)

/- The state before the blob is allocated. -/
def beforeBlob : UsbStack :=
  (readShortConfiguration c.world st.deviceCount.toNat
    (readDeviceDescriptor c.world st.deviceCount.toNat (c.claimed st)).1).1

/- The call gets as far as the parser. -/
def Parses : Prop :=
  c.Claims st ∧ (readDeviceDescriptor c.world st.deviceCount.toNat (c.claimed st)).2 = true ∧
    (readShortConfiguration c.world st.deviceCount.toNat
      (readDeviceDescriptor c.world st.deviceCount.toNat (c.claimed st)).1).2 = true ∧
    (fetchBlob c.world st.deviceCount.toNat (c.beforeBlob st)).2 = true

/- The entry the parser starts with, and what it makes of it. -/
def parsedEntry : UsbDevice := (c.beforeBlob st).devices st.deviceCount.toNat

def parsed (sent : Bytes) (before : ℕ → UInt8) : UsbDevice × Bool :=
  usbParseConfigBlobIntoDevice (memoryAfter c.blobRequest sent before) c.world.totalLength
    (c.parsedEntry st)

/- The state after the parser. -/
def afterParser (dev : UsbDevice) : UsbStack :=
  setDevice st.deviceCount.toNat dev {c.beforeBlob st with
    uhci := (fetchBlob c.world st.deviceCount.toNat (c.beforeBlob st)).1}

/- SET_CONFIGURATION and the keyboard. -/
def lastSteps : List (UsbStack → UsbStack × Bool) :=
  [setConfiguration c.world st.deviceCount.toNat, attachKeyboard c.world c.ioBase st.deviceCount.toNat]

end EnumCall

section Calls
variable {c : EnumCall} {st : UsbStack} {sent : Bytes}

theorem lastSteps_devices (s : UsbStack) {f : UsbStack → UsbStack × Bool} (hf : f ∈ c.lastSteps st) :
    (f s).1.devices = s.devices := by
  simp only [EnumCall.lastSteps, List.mem_cons, List.not_mem_nil, or_false] at hf
  obtain rfl | rfl := hf
  · rfl
  · unfold attachKeyboard
    dsimp only
    split
    · split
      · split <;> rfl
      · rfl
    · rfl

theorem returnPath_claims (h : c.Claims st) :
    c.returnPath st =
      3 + Run.passed (enumSteps c.world c.ioBase st.deviceCount.toNat) (c.claimed st) := by
  obtain ⟨hroom, hport, haddr⟩ := h
  rw [EnumCall.returnPath, if_neg (UInt8.not_le.mpr hroom), if_neg (ne_false_of_eq_true hport),
    if_neg haddr]

/- What the steps do once the call gets to the parser. -/
theorem steps_parse (h : c.Parses st) (sent : Bytes) (before : ℕ → UInt8) :
    let r := c.parsed st sent before
    let steps := enumSteps (c.withBlob sent before).world c.ioBase st.deviceCount.toNat
    Run.bail steps (c.claimed st) =
        (if r.2 then Run.bail (c.lastSteps st) (c.afterParser st r.1) else (c.afterParser st r.1, false)) ∧
      Run.passed steps (c.claimed st) =
        (if r.2 then Run.passed (c.lastSteps st) (c.afterParser st r.1) + 1 else 0) + 1 + 1 := by
  obtain ⟨-, hdevice, hshort, hfetch⟩ := h
  have hread := readConfiguration_eq (c.withBlob sent before).world st.deviceCount.toNat (c.beforeBlob st)
  have hfetch' : (fetchBlob (c.withBlob sent before).world st.deviceCount.toNat (c.beforeBlob st)).2 =
    true := hfetch
  rw [if_pos hfetch'] at hread
  have hsteps : enumSteps (c.withBlob sent before).world c.ioBase st.deviceCount.toNat =
      readDeviceDescriptor c.world st.deviceCount.toNat ::
        readShortConfiguration c.world st.deviceCount.toNat ::
        readConfiguration (c.withBlob sent before).world st.deviceCount.toNat :: c.lastSteps st := rfl
  dsimp only
  rw [hsteps]
  simp only [Run.bail, Run.passed, hdevice, hshort, if_true]
  rw [← EnumCall.beforeBlob, hread]
  exact ⟨rfl, rfl⟩

/- The steps of two calls end alike. -/
structure SameSteps (c : EnumCall) (st : UsbStack) (sent : Bytes) (before before' : ℕ → UInt8) :
    Prop where
  bail : Run.bail (enumSteps (c.withBlob sent before').world c.ioBase st.deviceCount.toNat)
      (c.claimed st) =
    Run.bail (enumSteps (c.withBlob sent before).world c.ioBase st.deviceCount.toNat) (c.claimed st)
  passed : Run.passed (enumSteps (c.withBlob sent before').world c.ioBase st.deviceCount.toNat)
      (c.claimed st) =
    Run.passed (enumSteps (c.withBlob sent before).world c.ioBase st.deviceCount.toNat) (c.claimed st)

theorem sameSteps_of_parsed (h : c.Parses st) {before before' : ℕ → UInt8}
    (hsame : c.parsed st sent before' = c.parsed st sent before) :
    SameSteps c st sent before before' := by
  obtain ⟨hbail, hpassed⟩ := steps_parse h sent before
  obtain ⟨hbail', hpassed'⟩ := steps_parse h sent before'
  rw [hsame] at hbail' hpassed'
  exact ⟨hbail'.trans hbail.symm, hpassed'.trans hpassed.symm⟩

/- Without the parser the block is not looked at. -/
theorem sameSteps_of_not_parses (hclaims : c.Claims st) (h : ¬c.Parses st) (sent : Bytes)
    (before before' : ℕ → UInt8) : SameSteps c st sent before before' := by
  have hsteps : ∀ before, enumSteps (c.withBlob sent before).world c.ioBase st.deviceCount.toNat =
      readDeviceDescriptor c.world st.deviceCount.toNat ::
        readShortConfiguration c.world st.deviceCount.toNat ::
        readConfiguration (c.withBlob sent before).world st.deviceCount.toNat :: c.lastSteps st :=
    fun _ => rfl
  suffices hboth : Run.bail (enumSteps (c.withBlob sent before').world c.ioBase st.deviceCount.toNat)
        (c.claimed st) = Run.bail (enumSteps (c.withBlob sent before).world c.ioBase
          st.deviceCount.toNat) (c.claimed st) ∧
      Run.passed (enumSteps (c.withBlob sent before').world c.ioBase st.deviceCount.toNat)
        (c.claimed st) = Run.passed (enumSteps (c.withBlob sent before).world c.ioBase
          st.deviceCount.toNat) (c.claimed st) from ⟨hboth.1, hboth.2⟩
  rw [hsteps, hsteps]
  cases hdevice : (readDeviceDescriptor c.world st.deviceCount.toNat (c.claimed st)).2 with
  | false => simp [Run.bail, Run.passed, hdevice]
  | true =>
    cases hshort : (readShortConfiguration c.world st.deviceCount.toNat
        (readDeviceDescriptor c.world st.deviceCount.toNat (c.claimed st)).1).2 with
    | false => simp [Run.bail, Run.passed, hdevice, hshort]
    | true =>
      have hfetch : ¬(fetchBlob c.world st.deviceCount.toNat (c.beforeBlob st)).2 = true :=
        fun hfetch => h ⟨hclaims, hdevice, hshort, hfetch⟩
      have hread : ∀ before,
          readConfiguration (c.withBlob sent before).world st.deviceCount.toNat (c.beforeBlob st) =
            ({c.beforeBlob st with
              uhci := (fetchBlob c.world st.deviceCount.toNat (c.beforeBlob st)).1}, false) := by
        intro before
        rw [readConfiguration_eq]
        exact if_neg hfetch
      simp only [Run.bail, Run.passed, hdevice, hshort, if_true]
      rw [← EnumCall.beforeBlob, hread, hread]
      exact ⟨rfl, rfl⟩

/- The steps after the claim decide the call. -/
theorem run_of_steps {before before' : ℕ → UInt8} (h : c.Claims st → SameSteps c st sent before before') :
    (c.withBlob sent before').run st = (c.withBlob sent before).run st ∧
      (c.withBlob sent before').returnPath st = (c.withBlob sent before).returnPath st := by
  by_cases hclaims : c.Claims st
  · have hclaims' : ∀ before, (c.withBlob sent before).Claims st := fun _ => hclaims
    rw [EnumCall.run_claims (hclaims' before), EnumCall.run_claims (hclaims' before'),
      returnPath_claims (hclaims' before), returnPath_claims (hclaims' before')]
    refine ⟨?_, congrArg (3 + ·) (h hclaims).passed⟩
    exact congrArg (fun r : UsbStack × Bool =>
      (({r.1 with enumerated := Function.update r.1.enumerated st.deviceCount.toNat r.2} : UsbStack),
        r.2)) (h hclaims).bail
  · rw [EnumCall.run_eq, EnumCall.run_eq, EnumCall.returnPath, EnumCall.returnPath]
    by_cases hfull : maxUsbDevices ≤ st.deviceCount
    · simp only [if_pos hfull, and_self]
    simp only [if_neg hfull]
    cases hport : portReady c.world.portStatus with
    | false =>
      exact ⟨(if_pos hport).trans (if_pos hport).symm, (if_pos hport).trans (if_pos hport).symm⟩
    | true =>
      have haddr : (c.setAddress st).2 = 0 := by
        by_contra hne
        exact hclaims ⟨UInt8.not_le.mp hfull, hport, hne⟩
      have hport' : ¬portReady c.world.portStatus = false := by
        rw [hport]
        decide
      exact ⟨((if_neg hport').trans (if_pos haddr)).trans ((if_neg hport').trans (if_pos haddr)).symm,
        ((if_neg hport').trans (if_pos haddr)).trans ((if_neg hport').trans (if_pos haddr)).symm⟩

/- The entry a call leaves is the one the parser made. -/
theorem run_entry (h : c.Parses st) (sent : Bytes) (before : ℕ → UInt8) :
    ((c.withBlob sent before).run st).1.devices st.deviceCount.toNat = (c.parsed st sent before).1 := by
  obtain ⟨hbail, -⟩ := steps_parse h sent before
  have hkeep : ∀ s : UsbStack, (Run.bail (c.lastSteps st) s).1.devices = s.devices := by
    intro s
    exact Run.bail_invariant (fun f hf s' (hs' : s'.devices = s.devices) =>
      (lastSteps_devices s' hf).trans hs') (rfl : s.devices = s.devices)
  have hentry : ∀ dev, (c.afterParser st dev).devices st.deviceCount.toNat = dev := fun dev =>
    Function.update_self ..
  have hclaims : (c.withBlob sent before).Claims st := h.1
  rw [EnumCall.run_claims hclaims]
  show (Run.bail (enumSteps (c.withBlob sent before).world c.ioBase st.deviceCount.toNat)
    (c.claimed st)).1.devices _ = _
  rw [hbail]
  split
  · rw [hkeep, hentry]
  · exact hentry _

/- How far a call gets tells what the parser returned. -/
theorem run_path (h : c.Parses st) (sent : Bytes) (before : ℕ → UInt8) :
    (c.parsed st sent before).2 = true ↔ 5 < (c.withBlob sent before).returnPath st := by
  have hclaims : (c.withBlob sent before).Claims st := h.1
  rw [returnPath_claims hclaims]
  have hpassed := (steps_parse h sent before).2
  rw [show Run.passed (enumSteps (c.withBlob sent before).world (c.withBlob sent before).ioBase
    st.deviceCount.toNat) ((c.withBlob sent before).claimed st) = _ from hpassed]
  cases (c.parsed st sent before).2 with
  | false => simp
  | true =>
    simp
    omega

/- A call depends on the old contents of the block as far as the parser does. -/
theorem independent_iff (c : EnumCall) (sent : Bytes) (blockLen : ℕ) (before : ℕ → UInt8)
    (st : UsbStack) :
    Independent c sent blockLen before st ↔ ¬c.Parses st ∨
      ∀ before', AgreeOutside blockLen before before' →
        c.parsed st sent before' = c.parsed st sent before := by
  by_cases hparses : c.Parses st
  · rw [or_iff_right (not_not_intro hparses)]
    constructor
    · intro h before' hagree
      obtain ⟨hentry, hpath, -⟩ := h before' hagree
      rw [run_entry hparses, run_entry hparses] at hentry
      refine Prod.ext hentry (Bool.eq_iff_iff.mpr ?_)
      rw [run_path hparses, run_path hparses, hpath]
    · intro h before' hagree
      obtain ⟨hrun, hpath⟩ := run_of_steps fun _ => sameSteps_of_parsed hparses (h before' hagree)
      dsimp only
      rw [hrun]
      exact ⟨rfl, hpath, rfl⟩
  · refine iff_of_true ?_ (Or.inl hparses)
    intro before' _
    obtain ⟨hrun, hpath⟩ := run_of_steps fun hclaims =>
      sameSteps_of_not_parses hclaims hparses sent before before'
    dsimp only
    rw [hrun]
    exact ⟨rfl, hpath, rfl⟩

end Calls

/-! ### What the parser reads -/

/- In the block the parser reads only what the device has sent. -/
def ReadsFresh (c : EnumCall) (sent : Bytes) (blockLen : ℕ) (before : ℕ → UInt8) (st : UsbStack) :
    Prop :=
  ∀ i ∈ (parseReads maxRounds c.world.totalLength (c.parsedEntry st)).reads
    (memoryAfter c.blobRequest sent before), i < received c.blobRequest sent ∨ blockLen ≤ i

theorem memoryAfter_agree {req : Request} {sent : Bytes} {blockLen : ℕ} {before before' : ℕ → UInt8}
    (hagree : AgreeOutside blockLen before before') {i : ℕ} (hi : i < received req sent ∨ blockLen ≤ i) :
    memoryAfter req sent before' i = memoryAfter req sent before i := by
  unfold memoryAfter
  by_cases hlt : i < received req sent
  · rw [if_pos hlt, if_pos hlt]
  · rw [if_neg hlt, if_neg hlt, hagree i (hi.resolve_left hlt)]

theorem ReadsFresh.parsed {c : EnumCall} {sent : Bytes} {blockLen : ℕ} {before before' : ℕ → UInt8}
    {st : UsbStack} (h : ReadsFresh c sent blockLen before st)
    (hagree : AgreeOutside blockLen before before') :
    c.parsed st sent before' = c.parsed st sent before := by
  have hfuel : 65535 < maxRounds := by decide
  obtain ⟨hrun, -⟩ := congr_reads (parseReads maxRounds c.world.totalLength (c.parsedEntry st))
    fun i hi => memoryAfter_agree hagree (h i hi)
  rw [parseReads_run hfuel, parseReads_run hfuel, Option.some.injEq] at hrun
  exact hrun

theorem parse_configDescriptor (buf : ℕ → UInt8) {totalLen : UInt16} (dev : UsbDevice)
    (h : ¬totalLen < 9) :
    (usbParseConfigBlobIntoDevice buf totalLen dev).1.configDescriptor = copyBytes buf 0 9 := by
  unfold usbParseConfigBlobIntoDevice
  rw [if_neg h]
  dsimp only
  split
  · rfl
  · split <;> rfl

/- With less than a configuration descriptor the entry gets stale bytes. -/
theorem not_independent_of_short {c : EnumCall} {sent : Bytes} {blockLen : ℕ} {st : UsbStack}
    (before : ℕ → UInt8) (hparses : c.Parses st) (hlong : ¬c.world.totalLength < 9)
    (hshort : received c.blobRequest sent < 9) (hblock : received c.blobRequest sent < blockLen) :
    ¬Independent c sent blockLen before st := by
  rw [independent_iff]
  rintro (hnot | hsame)
  · exact hnot hparses
  generalize hi : received c.blobRequest sent = i at hshort hblock
  have hagree : AgreeOutside blockLen before (Function.update before i (before i + 1)) :=
    fun j hj => Function.update_of_ne (Nat.ne_of_gt (Nat.lt_of_lt_of_le hblock hj)) ..
  have hconfig := congrArg (fun r => byteAt (UsbDevice.configDescriptor r.1) i) (hsame _ hagree)
  have hread : ∀ before, memoryAfter c.blobRequest sent before i = before i :=
    fun _ => if_neg (by rw [hi]; exact Nat.lt_irrefl _)
  simp only [EnumCall.parsed, parse_configDescriptor _ _ hlong, byteAt_copyBytes _ _ hshort,
    Nat.zero_add, hread, Function.update_self] at hconfig
  have hne : before i + 1 ≠ before i := by
    intro he
    have hone : (1 : UInt8) = 0 := add_left_cancel (he.trans (add_zero (before i)).symm)
    exact absurd hone (by decide)
  exact hne hconfig

/-- A call that reads only what the device has sent does not depend on what the
block held before, and neither does one that ends before the parser. In every
call the old contents matter exactly as far as the parser's result does; they do
if the device sends less than a configuration descriptor. -/
theorem stale_contents (c : EnumCall) (sent : Bytes) (blockLen : ℕ) (before : ℕ → UInt8)
    (st : UsbStack) :
    (¬c.Parses st ∨ ReadsFresh c sent blockLen before st → Independent c sent blockLen before st) ∧
    (Independent c sent blockLen before st ↔ ¬c.Parses st ∨
      ∀ before', AgreeOutside blockLen before before' →
        c.parsed st sent before' = c.parsed st sent before) ∧
    (c.Parses st → ¬c.world.totalLength < 9 → received c.blobRequest sent < 9 →
      received c.blobRequest sent < blockLen → ¬Independent c sent blockLen before st) := by
  refine ⟨?_, independent_iff c sent blockLen before st, not_independent_of_short before⟩
  intro h
  rw [independent_iff]
  exact h.imp_right fun hfresh _ hagree => hfresh.parsed hagree

/- The device announces 25 bytes and sends the first 9; the block held the rest of
a keyboard's configuration. -/
def shortBlobCall : EnumCall :=
  ⟨⟨0, 0, 0x0005, transferAt 0 0, transferAt 0 0, {transferAt 0 0 with sp := 0x1100},
    {transferAt 0 0 with sp := 0x1110}, {transferAt 0 0 with sp := 0x1110}, 0x90000, [], 0x90100, 25,
    0x3010, fun _ => 0, ⟨0x2010, 0x2020, 0x2030, 0⟩⟩, 0xC000, 0⟩

def sentBytes : Bytes := [9, 2, 25, 0, 1, 1, 0, 0xA0, 50]

def wholeConfiguration : Bytes :=
  sentBytes ++ [9, 4, 0, 0, 1, 3, 1, 1, 0] ++ [7, 5, 0x81, 3, 8, 0, 10]

/- A device that sends all it announces. -/
theorem whole_configuration_independent :
    Independent shortBlobCall wholeConfiguration 32 (fun _ => 0) emptyStack := by
  refine (stale_contents _ _ _ _ _).1 (Or.inr ?_)
  show ∀ i ∈ _, _
  decide +kernel

theorem parsed_of_reads {c : EnumCall} {st : UsbStack} {sent : Bytes} {before : ℕ → UInt8} {ok : Bool}
    (h : ((parseReads maxRounds c.world.totalLength (c.parsedEntry st)).run
      (memoryAfter c.blobRequest sent before)).map Prod.snd = some ok) :
    (c.parsed st sent before).2 = ok := by
  have hfuel : 65535 < maxRounds := by decide
  rw [parseReads_run hfuel, Option.map_some, Option.some.injEq] at h
  exact h

/- With the old bytes there is a keyboard, with zeros there is none. -/
theorem stale_keyboard_enumerated :
    ¬Independent shortBlobCall sentBytes 25 (fun _ => 0) emptyStack := by
  have hparses : shortBlobCall.Parses emptyStack :=
    ⟨⟨by decide, by decide, by decide⟩, by decide, by decide, by decide⟩
  have hzero : (shortBlobCall.parsed emptyStack sentBytes fun _ => 0).2 = false :=
    parsed_of_reads (by decide +kernel)
  have hstale : (shortBlobCall.parsed emptyStack sentBytes (blobOf wholeConfiguration)).2 = true :=
    parsed_of_reads (by decide +kernel)
  have hagree : AgreeOutside 25 (fun _ => 0) (blobOf wholeConfiguration) := by
    intro i hi
    have hnone : wholeConfiguration[i]? = none := List.getElem?_eq_none hi
    simp only [blobOf, byteAt, List.getD, hnone, Option.getD_none]
  rw [independent_iff]
  rintro (hnot | hsame)
  · exact hnot hparses
  rw [← hsame (blobOf wholeConfiguration) hagree, hstale] at hzero
  cases hzero

end CasseOS.Usb
