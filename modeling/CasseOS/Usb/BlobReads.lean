import CasseOS.Lib.Reading
import CasseOS.Usb.Enumerate

/-! # The bytes the configuration parser looks at

The two loops of `usb_parse_config_blob_into_device` walk over the blob by the
length bytes of its descriptors. They check that a descriptor ends inside the
blob, not that it is as long as the structure it is taken for. Here the parser is
written with every byte it reads, in the order of the source. -/

namespace CasseOS.Usb
open Reading

/-! ### The loops -/

section Walk
variable {S R : Type} (totalLen : UInt16) (visit : ℕ → UInt8 → S → Reading UInt8 (S ⊕ R))
  (stop : S → R)

/-- A round of a loop from the length and the type byte on (`enumerate.c:77-89`,
`104-118`): `visit` is its body, which may leave the loop. -/
def walkOn (s : UInt16 × S) (len type : UInt8) : Reading UInt8 ((UInt16 × S) ⊕ R) :=
  if len = 0 ∨ totalLen.toNat < s.1.toNat + len.toNat then pure (.inr (stop s.2))
  else do
    match ← visit s.1.toNat type s.2 with
    | .inl s' => pure (.inl (s.1 + len.toUInt16, s'))
    | .inr r => pure (.inr r)

/-- A round of a loop (`enumerate.c:75-90`, `102-119`); the offset has 16 bits. -/
def walkRound (s : UInt16 × S) : Reading UInt8 ((UInt16 × S) ⊕ R) :=
  if s.1.toNat + 2 ≤ totalLen.toNat then do
    let len ← fetch s.1.toNat
    let type ← fetch (s.1.toNat + 1)
    walkOn totalLen visit stop s len type
  else pure (.inr (stop s.2))

def walk (fuel : ℕ) (s : S) : Reading UInt8 (Option R) :=
  iterate (walkRound totalLen visit stop) fuel (0, s)

end Walk

/-- `id->interface_class == USB_CLASS_HID && ...` and the copy to `best_if`
(`enumerate.c:82-87`). -/
def readKeyboard (off : ℕ) (best : Option Bytes) : Reading UInt8 (Option Bytes) := do
  let cls ← fetch (off + 5)
  if cls ≠ 0x03 then pure best
  else do
    let sub ← fetch (off + 6)
    if sub ≠ 0x01 then pure best
    else do
      let proto ← fetch (off + 7)
      if proto ≠ 0x01 then pure best
      else do
        let id ← copy off 9
        pure (some id)

/-- The body of the first loop (`enumerate.c:79-88`). -/
def visitInterface (off : ℕ) (type : UInt8) (acc : Option Bytes × Option Bytes) :
    Reading UInt8 ((Option Bytes × Option Bytes) ⊕ (Option Bytes × Option Bytes)) :=
  if type = usbDescTypeInterface then
    if acc.1.isNone then do
      let id ← copy off 9
      let best ← readKeyboard off acc.2
      pure (.inl (some id, best))
    else do
      let best ← readKeyboard off acc.2
      pure (.inl (acc.1, best))
  else pure (.inl acc)

/-- The body of the second loop (`enumerate.c:106-117`). -/
def visitEndpoint (chosen : Bytes) (off : ℕ) (type : UInt8) (inBlock : Bool) :
    Reading UInt8 (Bool ⊕ Option Bytes) :=
  if type = usbDescTypeInterface then do
    let number ← fetch (off + 2)
    if number ≠ interfaceNumber chosen then pure (.inl false)
    else do
      let alternate ← fetch (off + 3)
      pure (.inl (alternate = alternateSetting chosen))
  else if type = usbDescTypeEndpoint ∧ inBlock = true then do
    let attributes ← fetch (off + 3)
    if attributes &&& 0x3 ≠ 0x3 then pure (.inl inBlock)
    else do
      let address ← fetch (off + 2)
      if address &&& 0x80 = 0 then pure (.inl inBlock)
      else do
        let ep ← copy off 7
        pure (.inr (some ep))
  else pure (.inl inBlock)

/-- `usb_parse_config_blob_into_device` (`enumerate.c:62-128`), read by read. -/
def parseReads (fuel : ℕ) (totalLen : UInt16) (dev : UsbDevice) :
    Reading UInt8 (Option (UsbDevice × Bool)) :=
  if totalLen < 9 then pure (some (dev, false))
  else do
    let config ← copy 0 9
    let dev := {dev with configDescriptor := config}
    match ← walk totalLen visitInterface id fuel (none, none) with
    | none => pure none
    | some acc =>
      match acc.1 with
      | none => pure (some (dev, false))
      | some firstIf => do
        let chosen := acc.2.getD firstIf
        let dev := {dev with interfaceDescriptor := chosen}
        match ← walk totalLen (visitEndpoint chosen) (fun _ => none) fuel false with
        | none => pure none
        | some none => pure (some (dev, false))
        | some (some ep) => pure (some ({dev with endpointDescriptor := ep}, true))

/-! ### A walk goes over the descriptors -/

/- The loop goes on at `off`. -/
def Visits (buf : ℕ → UInt8) (totalLen off : ℕ) : Prop :=
  off + 2 ≤ totalLen ∧ buf off ≠ 0 ∧ off + (buf off).toNat ≤ totalLen

theorem descriptorOffsets_visits {buf : ℕ → UInt8} {totalLen off : ℕ} (h : Visits buf totalLen off) :
    descriptorOffsets buf totalLen off =
      off :: descriptorOffsets buf totalLen (off + (buf off).toNat) := by
  unfold Visits at h
  rw [descriptorOffsets, dif_pos h]

theorem descriptorOffsets_stop {buf : ℕ → UInt8} {totalLen off : ℕ} (h : ¬Visits buf totalLen off) :
    descriptorOffsets buf totalLen off = [] := by
  unfold Visits at h
  rw [descriptorOffsets, dif_neg h]

section Walk
variable {S R : Type} {totalLen : UInt16} {visit : ℕ → UInt8 → S → Reading UInt8 (S ⊕ R)}
  {stop : S → R} {buf : ℕ → UInt8}

/- The result of a walk over some offsets. -/
def visitAll (visit : ℕ → UInt8 → S → Reading UInt8 (S ⊕ R)) (stop : S → R) (buf : ℕ → UInt8) :
    S → List ℕ → R
  | s, [] => stop s
  | s, off :: offs =>
    match (visit off (buf (off + 1)) s).run buf with
    | .inl s' => visitAll visit stop buf s' offs
    | .inr r => r

/- Every byte the bodies look at is inside the blob. -/
def VisitsInside (visit : ℕ → UInt8 → S → Reading UInt8 (S ⊕ R)) (buf : ℕ → UInt8) (totalLen : ℕ) :
    S → List ℕ → Prop
  | _, [] => True
  | s, off :: offs =>
    (∀ i ∈ (visit off (buf (off + 1)) s).reads buf, i < totalLen) ∧
      match (visit off (buf (off + 1)) s).run buf with
      | .inl s' => VisitsInside visit buf totalLen s' offs
      | .inr _ => True

/- One round, at an offset from which the loop goes on. -/
theorem walkRound_visits (visit : ℕ → UInt8 → S → Reading UInt8 (S ⊕ R)) (stop : S → R)
    {off : UInt16} (s : S) (h : Visits buf totalLen.toNat off.toNat) :
    (walkRound totalLen visit stop (off, s)).run buf =
        (match (visit off.toNat (buf (off.toNat + 1)) s).run buf with
        | .inl s' => .inl (off + (buf off.toNat).toUInt16, s')
        | .inr r => .inr r) ∧
      (walkRound totalLen visit stop (off, s)).reads buf = off.toNat :: (off.toNat + 1) ::
        (visit off.toNat (buf (off.toNat + 1)) s).reads buf := by
  have hgo : ¬(buf off.toNat = 0 ∨ totalLen.toNat < off.toNat + (buf off.toNat).toNat) :=
    not_or.mpr ⟨h.2.1, Nat.not_lt_of_le h.2.2⟩
  unfold walkRound
  simp only [if_pos h.1, run_bind, reads_bind, run_fetch, reads_fetch]
  rw [walkOn, if_neg hgo, run_bind, reads_bind]
  cases (visit off.toNat (buf (off.toNat + 1)) s).run buf with
  | inl s' => exact ⟨rfl, by simp⟩
  | inr r => exact ⟨rfl, by simp⟩

/- The last round looks at the length and the type byte at most. -/
theorem walkRound_stop (visit : ℕ → UInt8 → S → Reading UInt8 (S ⊕ R)) (stop : S → R)
    {off : UInt16} (s : S) (h : ¬Visits buf totalLen.toNat off.toNat) :
    (walkRound totalLen visit stop (off, s)).run buf = .inr (stop s) ∧
      ∀ i ∈ (walkRound totalLen visit stop (off, s)).reads buf, i < totalLen.toNat := by
  unfold walkRound
  by_cases hroom : off.toNat + 2 ≤ totalLen.toNat
  · have hend : buf off.toNat = 0 ∨ totalLen.toNat < off.toNat + (buf off.toNat).toNat := by
      by_contra hnot
      rw [not_or] at hnot
      exact h ⟨hroom, hnot.1, Nat.le_of_not_lt hnot.2⟩
    simp only [if_pos hroom, run_bind, reads_bind, run_fetch, reads_fetch]
    rw [walkOn, if_pos hend]
    refine ⟨rfl, ?_⟩
    intro i hi
    simp only [reads_pure, List.mem_append, List.mem_singleton, List.not_mem_nil, or_false] at hi
    omega
  · rw [if_neg hroom]
    exact ⟨rfl, fun i hi => absurd hi List.not_mem_nil⟩

/- The offset does not wrap: the descriptor ends inside the blob. -/
theorem next_offset {off : UInt16} (h : Visits buf totalLen.toNat off.toNat) :
    (off + (buf off.toNat).toUInt16).toNat = off.toNat + (buf off.toNat).toNat ∧
      0 < (buf off.toNat).toNat := by
  have hlt := totalLen.toNat_lt
  have hle := h.2.2
  refine ⟨?_, Nat.pos_of_ne_zero fun hz => h.2.1 (UInt8.toNat_inj.mp hz)⟩
  rw [UInt16.toNat_add, UInt8.toNat_toUInt16]
  exact Nat.mod_eq_of_lt (by omega)

theorem iterate_walk (fuel : ℕ) (off : UInt16) (s : S) (hoff : off ≤ totalLen)
    (hfuel : totalLen.toNat < off.toNat + fuel) :
    (iterate (walkRound totalLen visit stop) fuel (off, s)).run buf =
        some (visitAll visit stop buf s (descriptorOffsets buf totalLen.toNat off.toNat)) ∧
      ((∀ i ∈ (iterate (walkRound totalLen visit stop) fuel (off, s)).reads buf,
          i < totalLen.toNat) ↔
        VisitsInside visit buf totalLen.toNat s
          (descriptorOffsets buf totalLen.toNat off.toNat)) := by
  induction fuel generalizing off s with
  | zero =>
    rw [UInt16.le_iff_toNat_le] at hoff
    omega
  | succ fuel ih =>
    by_cases hgo : Visits buf totalLen.toNat off.toNat
    · obtain ⟨hrun, hreads⟩ := walkRound_visits visit stop s hgo
      obtain ⟨hnext, hpos⟩ := next_offset hgo
      have hhead : off.toNat < totalLen.toNat ∧ off.toNat + 1 < totalLen.toNat := by
        have h2 := hgo.1
        omega
      rw [descriptorOffsets_visits hgo, visitAll, VisitsInside, iterate, run_bind, reads_bind, hrun,
        hreads]
      cases (visit off.toNat (buf (off.toNat + 1)) s).run buf with
      | inl s' =>
        obtain ⟨hrest, hinside⟩ := ih (off + (buf off.toNat).toUInt16) s'
          (by rw [UInt16.le_iff_toNat_le, hnext]; exact hgo.2.2) (by omega)
        rw [hnext] at hrest hinside
        refine ⟨hrest, ?_⟩
        dsimp only
        rw [← hinside]
        simp only [List.forall_mem_append, List.forall_mem_cons, hhead, true_and]
      | inr r =>
        refine ⟨rfl, ?_⟩
        simp only [List.forall_mem_append, List.forall_mem_cons, hhead, true_and, reads_pure,
          List.not_mem_nil, false_implies, implies_true, and_true]
    · obtain ⟨hrun, hreads⟩ := walkRound_stop visit stop s hgo
      rw [descriptorOffsets_stop hgo, visitAll, VisitsInside, iterate, run_bind, reads_bind, hrun]
      refine ⟨rfl, iff_of_true ?_ trivial⟩
      simpa using hreads

end Walk

/-! ### The bodies -/

section Bodies
variable (buf : ℕ → UInt8) (off : ℕ)

theorem byteAt_copyBytes {n i : ℕ} (h : i < n) : byteAt (copyBytes buf off n) i = buf (off + i) := by
  simp [byteAt, copyBytes, h]

theorem forall_mem_copy {n : ℕ} (hn : 0 < n) (total : ℕ) :
    (∀ i ∈ (copy off n : Reading UInt8 Bytes).reads buf, i < total) ↔ off + n ≤ total := by
  rw [reads_copy]
  constructor
  · intro h
    have hlast := h (off + (n - 1)) (List.mem_map.mpr ⟨n - 1, List.mem_range.mpr (by omega), rfl⟩)
    omega
  · intro h i hi
    obtain ⟨j, hj, rfl⟩ := List.mem_map.mp hi
    rw [List.mem_range] at hj
    omega

/- The interface at `off` is a boot keyboard. -/
def keyboardAt : Bool := isBootKeyboard (copyBytes buf off 9)

theorem keyboardAt_eq : keyboardAt buf off =
    decide (buf (off + 5) = 0x03 ∧ buf (off + 6) = 0x01 ∧ buf (off + 7) = 0x01) := by
  simp only [keyboardAt, isBootKeyboard, interfaceClass, interfaceSubclass, interfaceProtocol,
    byteAt_copyBytes buf off (by decide : 5 < 9), byteAt_copyBytes buf off (by decide : 6 < 9),
    byteAt_copyBytes buf off (by decide : 7 < 9)]

/- How much of an interface descriptor tells whether it is a boot keyboard; all
of it is copied if it is one. -/
def keyboardBytes : ℕ :=
  if buf (off + 5) ≠ 0x03 then 6
  else if buf (off + 6) ≠ 0x01 then 7
  else if buf (off + 7) ≠ 0x01 then 8
  else 9

theorem keyboardBytes_bounds : 6 ≤ keyboardBytes buf off ∧ keyboardBytes buf off ≤ 9 := by
  unfold keyboardBytes
  split
  · decide
  · split
    · decide
    · split <;> decide

theorem readKeyboard_spec (best : Option Bytes) (total : ℕ) :
    (readKeyboard off best).run buf =
        (if keyboardAt buf off then some (copyBytes buf off 9) else best) ∧
      ((∀ i ∈ (readKeyboard off best).reads buf, i < total) ↔ off + keyboardBytes buf off ≤ total) := by
  have hcopy := forall_mem_copy buf off (by decide : 0 < 9) total
  rw [reads_copy] at hcopy
  rw [keyboardAt_eq]
  unfold readKeyboard keyboardBytes
  by_cases hcls : buf (off + 5) = 0x03
  · by_cases hsub : buf (off + 6) = 0x01
    · by_cases hproto : buf (off + 7) = 0x01
      · simp only [run_bind, reads_bind, run_fetch, reads_fetch, hcls, hsub, hproto, ne_eq,
          not_true_eq_false, if_false, and_self, decide_true, if_true, run_copy, reads_copy, run_pure,
          reads_pure, List.forall_mem_append, List.forall_mem_singleton, hcopy]
        refine ⟨rfl, ?_⟩
        simp
        omega
      · simp [hcls, hsub, hproto]
        omega
    · simp [hcls, hsub]
      omega
  · simp [hcls]
    omega

theorem visitInterface_spec (acc : Option Bytes × Option Bytes) (total : ℕ) :
    (visitInterface off (buf (off + 1)) acc).run buf = .inl (pass1 buf acc off) ∧
      ((∀ i ∈ (visitInterface off (buf (off + 1)) acc).reads buf, i < total) ↔
        (buf (off + 1) = usbDescTypeInterface →
          off + (if acc.1.isSome then keyboardBytes buf off else 9) ≤ total)) := by
  obtain ⟨hrun, hreads⟩ := readKeyboard_spec buf off acc.2 total
  have hcopy := forall_mem_copy buf off (by decide : 0 < 9) total
  have hbytes := keyboardBytes_bounds buf off
  unfold visitInterface pass1
  by_cases htype : buf (off + 1) = usbDescTypeInterface
  · rw [if_pos htype, if_pos htype]
    obtain ⟨first, best⟩ := acc
    cases first with
    | none =>
      simp only [Option.isNone_none, if_true, run_bind, reads_bind, hrun, run_copy, run_pure,
        reads_pure, List.append_nil, List.forall_mem_append, hcopy, hreads, Option.isSome_none,
        Bool.false_eq_true, if_false, htype, true_implies]
      refine ⟨rfl, ?_⟩
      omega
    | some id =>
      simp only [Option.isNone_some, Bool.false_eq_true, if_false, run_bind, reads_bind, hrun,
        run_pure, reads_pure, List.append_nil, hreads, Option.isSome_some, if_true, htype,
        true_implies, and_true]
      rfl
  · rw [if_neg htype, if_neg htype]
    exact ⟨rfl, iff_of_true (fun i hi => absurd hi List.not_mem_nil) fun h => absurd h htype⟩

/- The endpoint at `off` is an interrupt IN endpoint. -/
def interruptInAt : Bool := buf (off + 3) &&& 0x3 = 0x3 ∧ buf (off + 2) &&& 0x80 ≠ 0

/- The interface at `off` has the number and the alternate setting of the chosen one. -/
def sameInterfaceAt (chosen : Bytes) : Bool :=
  buf (off + 2) = interfaceNumber chosen ∧ buf (off + 3) = alternateSetting chosen

theorem visitEndpoint_interface (chosen : Bytes) (inBlock : Bool) {total : ℕ}
    (htype : buf (off + 1) = usbDescTypeInterface) (hroom : off + 6 ≤ total) :
    (visitEndpoint chosen off (buf (off + 1)) inBlock).run buf =
        .inl (sameInterfaceAt buf off chosen) ∧
      ∀ i ∈ (visitEndpoint chosen off (buf (off + 1)) inBlock).reads buf, i < total := by
  unfold visitEndpoint sameInterfaceAt
  rw [if_pos htype]
  by_cases hnumber : buf (off + 2) = interfaceNumber chosen
  · simp [hnumber]
    exact ⟨rfl, by omega, by omega⟩
  · simp [hnumber]
    omega

theorem visitEndpoint_endpoint (chosen : Bytes) (total : ℕ)
    (htype : buf (off + 1) = usbDescTypeEndpoint) :
    (visitEndpoint chosen off (buf (off + 1)) true).run buf =
        (if interruptInAt buf off then .inr (some (copyBytes buf off 7)) else .inl true) ∧
      ((∀ i ∈ (visitEndpoint chosen off (buf (off + 1)) true).reads buf, i < total) ↔
        off + (if interruptInAt buf off then 7 else 4) ≤ total) := by
  have hcopy := forall_mem_copy buf off (by decide : 0 < 7) total
  have hne : ¬buf (off + 1) = usbDescTypeInterface := by
    rw [htype]
    decide
  unfold visitEndpoint interruptInAt
  rw [if_neg hne, if_pos ⟨htype, rfl⟩]
  by_cases hattr : buf (off + 3) &&& 0x3 = 0x3
  · by_cases haddr : buf (off + 2) &&& 0x80 = 0
    · simp [hattr, haddr]
      omega
    · rw [reads_copy] at hcopy
      simp only [run_bind, reads_bind, run_fetch, reads_fetch, hattr, haddr, ne_eq, not_true_eq_false,
        not_false_eq_true, if_false, and_self, decide_true, if_true, run_copy, reads_copy, run_pure,
        reads_pure, List.forall_mem_append, List.forall_mem_singleton, hcopy]
      refine ⟨rfl, ?_⟩
      simp
      omega
  · simp [hattr]
    omega

theorem visitEndpoint_other (chosen : Bytes) (inBlock : Bool)
    (hinterface : buf (off + 1) ≠ usbDescTypeInterface)
    (hendpoint : ¬(buf (off + 1) = usbDescTypeEndpoint ∧ inBlock = true)) :
    visitEndpoint chosen off (buf (off + 1)) inBlock = pure (.inl inBlock) := by
  rw [visitEndpoint, if_neg hinterface, if_neg hendpoint]

end Bodies

/-! ### Room for the structures -/

section Room
variable (buf : ℕ → UInt8) (total : ℕ)

/- What is read of each interface descriptor ends inside the blob: all of the
first one, which is copied, and of a later one what tells that it is no boot
keyboard. -/
def RoomForInterfaces : Bool → List ℕ → Prop
  | _, [] => True
  | seen, off :: offs =>
    if buf (off + 1) = usbDescTypeInterface then
      off + (if seen then keyboardBytes buf off else 9) ≤ total ∧ RoomForInterfaces true offs
    else RoomForInterfaces seen offs

/- What is read of the endpoint descriptors in the block of the chosen interface
ends inside the blob, up to the first interrupt IN endpoint, which is copied. -/
def RoomForEndpoints (chosen : Bytes) : Bool → List ℕ → Prop
  | _, [] => True
  | inBlock, off :: offs =>
    if buf (off + 1) = usbDescTypeInterface then
      RoomForEndpoints chosen (sameInterfaceAt buf off chosen) offs
    else if buf (off + 1) = usbDescTypeEndpoint ∧ inBlock = true then
      if interruptInAt buf off then off + 7 ≤ total
      else off + 4 ≤ total ∧ RoomForEndpoints chosen inBlock offs
    else RoomForEndpoints chosen inBlock offs

theorem RoomForInterfaces.mem {buf : ℕ → UInt8} {total : ℕ} {seen : Bool} {offs : List ℕ}
    (h : RoomForInterfaces buf total seen offs) :
    ∀ off ∈ offs, buf (off + 1) = usbDescTypeInterface → off + 6 ≤ total := by
  induction offs generalizing seen with
  | nil => simp
  | cons off offs ih =>
    have hbytes := keyboardBytes_bounds buf off
    intro off' hoff' htype
    rw [RoomForInterfaces] at h
    obtain rfl | hmem := List.mem_cons.mp hoff'
    · rw [if_pos htype] at h
      have hroom := h.1
      split at hroom <;> omega
    · split at h
      · exact ih h.2 off' hmem htype
      · exact ih h off' hmem htype

end Room

section Passes
variable {buf : ℕ → UInt8} {total : ℕ}

theorem visitAll_interfaces (offs : List ℕ) (acc : Option Bytes × Option Bytes) :
    visitAll visitInterface id buf acc offs = offs.foldl (pass1 buf) acc := by
  induction offs generalizing acc with
  | nil => rfl
  | cons off offs ih =>
    rw [visitAll, (visitInterface_spec buf off acc 0).1]
    exact ih _

theorem pass1_isSome (acc : Option Bytes × Option Bytes) (off : ℕ) :
    (pass1 buf acc off).1.isSome = (acc.1.isSome || decide (buf (off + 1) = usbDescTypeInterface)) := by
  unfold pass1
  by_cases htype : buf (off + 1) = usbDescTypeInterface
  · simp [htype]
  · simp [htype]

theorem visitsInside_interfaces (offs : List ℕ) (acc : Option Bytes × Option Bytes) :
    VisitsInside visitInterface buf total acc offs ↔
      RoomForInterfaces buf total acc.1.isSome offs := by
  induction offs generalizing acc with
  | nil => exact Iff.rfl
  | cons off offs ih =>
    obtain ⟨hrun, hreads⟩ := visitInterface_spec buf off acc total
    rw [VisitsInside, hrun, hreads, RoomForInterfaces]
    dsimp only
    rw [ih, pass1_isSome]
    by_cases htype : buf (off + 1) = usbDescTypeInterface
    · simp [htype]
    · simp [htype]

theorem visitAll_endpoints (chosen : Bytes) (offs : List ℕ) (inBlock : Bool) :
    visitAll (visitEndpoint chosen) (fun _ => none) buf inBlock offs =
      pass2 buf chosen inBlock offs := by
  have hcopy : ∀ {off n i : ℕ}, i < n → byteAt (copyBytes buf off n) i = buf (off + i) :=
    fun h => byteAt_copyBytes buf _ h
  induction offs generalizing inBlock with
  | nil => rfl
  | cons off offs ih =>
    rw [visitAll, pass2]
    by_cases hinterface : buf (off + 1) = usbDescTypeInterface
    · rw [(visitEndpoint_interface buf off chosen inBlock hinterface le_rfl).1, if_pos hinterface]
      dsimp only
      rw [ih, interfaceNumber, alternateSetting, hcopy (by decide : 2 < 9), hcopy (by decide : 3 < 9)]
      rfl
    rw [if_neg hinterface]
    by_cases hendpoint : buf (off + 1) = usbDescTypeEndpoint ∧ inBlock = true
    · rw [if_pos hendpoint]
      obtain ⟨htype, rfl⟩ := hendpoint
      have hiff : endpointAttributes (copyBytes buf off 7) &&& 0x3 = 0x3 ∧
          endpointAddress (copyBytes buf off 7) &&& 0x80 ≠ 0 ↔ interruptInAt buf off = true := by
        rw [endpointAttributes, endpointAddress, hcopy (by decide : 3 < 7), hcopy (by decide : 2 < 7),
          interruptInAt, decide_eq_true_eq]
      rw [(visitEndpoint_endpoint buf off chosen 0 htype).1]
      dsimp only
      by_cases hin : interruptInAt buf off = true
      · rw [if_pos hin, if_pos (hiff.mpr hin)]
      · rw [if_neg hin, if_neg fun h => hin (hiff.mp h)]
        exact ih true
    · rw [visitEndpoint_other buf off chosen inBlock hinterface hendpoint, if_neg hendpoint]
      exact ih inBlock

theorem visitsInside_endpoints (chosen : Bytes) (offs : List ℕ) (inBlock : Bool)
    (hroom : ∀ off ∈ offs, buf (off + 1) = usbDescTypeInterface → off + 6 ≤ total) :
    VisitsInside (visitEndpoint chosen) buf total inBlock offs ↔
      RoomForEndpoints buf total chosen inBlock offs := by
  induction offs generalizing inBlock with
  | nil => exact Iff.rfl
  | cons off offs ih =>
    have ih' := fun inBlock => ih inBlock fun o ho => hroom o (List.mem_cons_of_mem off ho)
    rw [VisitsInside, RoomForEndpoints]
    by_cases hinterface : buf (off + 1) = usbDescTypeInterface
    · obtain ⟨hrun, hreads⟩ := visitEndpoint_interface buf off chosen inBlock hinterface
        (hroom off (List.mem_cons_self ..) hinterface)
      rw [hrun, if_pos hinterface]
      dsimp only
      rw [ih']
      exact and_iff_right hreads
    rw [if_neg hinterface]
    by_cases hendpoint : buf (off + 1) = usbDescTypeEndpoint ∧ inBlock = true
    · rw [if_pos hendpoint]
      obtain ⟨htype, rfl⟩ := hendpoint
      obtain ⟨hrun, hreads⟩ := visitEndpoint_endpoint buf off chosen total htype
      rw [hrun, hreads]
      by_cases hin : interruptInAt buf off = true
      · simp only [if_pos hin]
        exact and_iff_left trivial
      · simp only [if_neg hin]
        rw [ih']
    · rw [visitEndpoint_other buf off chosen inBlock hinterface hendpoint, if_neg hendpoint]
      simp only [run_pure, reads_pure, List.not_mem_nil, false_implies, implies_true, true_and]
      exact ih' inBlock

end Passes

/-! ### The chosen interface -/

/- The last keyboard interface, or else the first interface. -/
def chosenOf {A : Type} (isInterface isKeyboard : A → Bool) (l : List A) : Option A :=
  (l.filter fun a => isInterface a && isKeyboard a).getLast?.or (l.find? isInterface)

section Chosen
variable {A B : Type} {p k : A → Bool} {g : A → B}

/- What the first loop keeps: the first interface and the last keyboard. -/
theorem foldl_chosen (l : List A) (acc : Option B × Option B) :
    l.foldl (fun acc a => if p a then (acc.1.or (some (g a)), if k a then some (g a) else acc.2)
      else acc) acc =
      (acc.1.or ((l.find? p).map g),
        ((l.filter fun a => p a && k a).getLast?.map g).or acc.2) := by
  induction l generalizing acc with
  | nil => simp
  | cons a l ih =>
    rw [List.foldl_cons, ih]
    cases hp : p a with
    | false => simp [hp]
    | true =>
      cases hk : k a with
      | false => simp [hp, hk]
      | true =>
        cases hl : (l.filter fun a => p a && k a).getLast? with
        | none => simp [hp, hk, hl, List.getLast?_cons]
        | some b => simp [hp, hk, hl, List.getLast?_cons]

theorem chosenOf_map (l : List A) :
    (chosenOf p k l).map g = ((l.find? p).map g).map fun first =>
      ((l.filter fun a => p a && k a).getLast?.map g).getD first := by
  unfold chosenOf
  cases hfind : l.find? p with
  | some a => cases (l.filter fun a => p a && k a).getLast? <;> rfl
  | none =>
    have hnil : (l.filter fun a => p a && k a) = [] := by
      rw [List.filter_eq_nil_iff]
      intro a ha
      have hnone := List.find?_eq_none.mp hfind a ha
      simp [hnone]
    rw [hnil]
    rfl

end Chosen

/- The descriptor at `off` is an interface. -/
def interfaceAt (buf : ℕ → UInt8) (off : ℕ) : Bool := buf (off + 1) = usbDescTypeInterface

def chosenInterface (buf : ℕ → UInt8) (totalLen : UInt16) : Option ℕ :=
  chosenOf (interfaceAt buf) (keyboardAt buf) (descriptorOffsets buf totalLen.toNat 0)

/- What the first loop has found at its end. -/
def interfacesFound (buf : ℕ → UInt8) (totalLen : UInt16) : Option Bytes × Option Bytes :=
  (descriptorOffsets buf totalLen.toNat 0).foldl (pass1 buf) (none, none)

theorem interfacesFound_chosen (buf : ℕ → UInt8) (totalLen : UInt16) :
    (interfacesFound buf totalLen).1.map (fun first => (interfacesFound buf totalLen).2.getD first) =
      (chosenInterface buf totalLen).map fun off => copyBytes buf off 9 := by
  have hpass : pass1 buf = fun acc off =>
      if interfaceAt buf off then (acc.1.or (some (copyBytes buf off 9)),
        if keyboardAt buf off then some (copyBytes buf off 9) else acc.2) else acc := by
    funext acc off
    simp only [pass1, interfaceAt, decide_eq_true_eq]
    rfl
  rw [interfacesFound, hpass, foldl_chosen, chosenInterface, chosenOf_map]
  simp

/- Without a chosen interface there is none, and with one it is copied. -/
theorem interfacesFound_cases (buf : ℕ → UInt8) (totalLen : UInt16) :
    (chosenInterface buf totalLen = none ∧ (interfacesFound buf totalLen).1 = none) ∨
    ∃ off first, chosenInterface buf totalLen = some off ∧
      (interfacesFound buf totalLen).1 = some first ∧
      (interfacesFound buf totalLen).2.getD first = copyBytes buf off 9 := by
  have hchosen := interfacesFound_chosen buf totalLen
  cases hfirst : (interfacesFound buf totalLen).1 with
  | none =>
    rw [hfirst] at hchosen
    exact Or.inl ⟨Option.map_eq_none_iff.mp hchosen.symm, rfl⟩
  | some first =>
    rw [hfirst] at hchosen
    obtain ⟨off, hoff, hcopy⟩ := Option.map_eq_some_iff.mp hchosen.symm
    exact Or.inr ⟨off, first, hoff, rfl, hcopy.symm⟩

/-! ### The whole parser -/

/- Every byte that is read is inside the blob. -/
def BlobRoom (buf : ℕ → UInt8) (totalLen : UInt16) : Prop :=
  let offs := descriptorOffsets buf totalLen.toNat 0
  RoomForInterfaces buf totalLen.toNat false offs ∧
    ∀ off, chosenInterface buf totalLen = some off →
      RoomForEndpoints buf totalLen.toNat (copyBytes buf off 9) false offs

theorem walk_spec {S R : Type} (totalLen : UInt16) (visit : ℕ → UInt8 → S → Reading UInt8 (S ⊕ R))
    (stop : S → R) (buf : ℕ → UInt8) {fuel : ℕ} (hfuel : 65535 < fuel) (s : S) :
    (walk totalLen visit stop fuel s).run buf =
        some (visitAll visit stop buf s (descriptorOffsets buf totalLen.toNat 0)) ∧
      ((∀ i ∈ (walk totalLen visit stop fuel s).reads buf, i < totalLen.toNat) ↔
        VisitsInside visit buf totalLen.toNat s (descriptorOffsets buf totalLen.toNat 0)) := by
  have hlt := totalLen.toNat_lt
  refine iterate_walk fuel 0 s ?_ ?_
  · rw [UInt16.le_iff_toNat_le]
    exact Nat.zero_le _
  · show totalLen.toNat < 0 + fuel
    omega

section Parse
variable {fuel : ℕ} (hfuel : 65535 < fuel) (buf : ℕ → UInt8) (totalLen : UInt16) (dev : UsbDevice)
include hfuel

/-- Written with its reads, the parser comes to an end and does what it did. -/
theorem parseReads_run :
    (parseReads fuel totalLen dev).run buf = some (usbParseConfigBlobIntoDevice buf totalLen dev) := by
  unfold parseReads usbParseConfigBlobIntoDevice
  by_cases hshort : totalLen < 9
  · rw [if_pos hshort, if_pos hshort]
    rfl
  rw [if_neg hshort, if_neg hshort]
  obtain ⟨hrun, -⟩ := walk_spec totalLen visitInterface id buf hfuel (none, none)
  rw [visitAll_interfaces] at hrun
  simp only [run_bind, hrun, run_copy]
  generalize (descriptorOffsets buf totalLen.toNat 0).foldl (pass1 buf) (none, none) = acc
  obtain ⟨first, best⟩ := acc
  cases first with
  | none => rfl
  | some first =>
    obtain ⟨hrun', -⟩ := walk_spec totalLen (visitEndpoint (best.getD first)) (fun _ => none) buf hfuel
      false
    rw [visitAll_endpoints] at hrun'
    simp only [run_bind, hrun']
    cases pass2 buf (best.getD first) false (descriptorOffsets buf totalLen.toNat 0) with
    | none => rfl
    | some ep => rfl

theorem parseReads_inside :
    (∀ i ∈ (parseReads fuel totalLen dev).reads buf, i < totalLen.toNat) ↔
      totalLen < 9 ∨ BlobRoom buf totalLen := by
  unfold parseReads
  by_cases hshort : totalLen < 9
  · rw [if_pos hshort]
    exact iff_of_true (fun i hi => absurd hi List.not_mem_nil) (Or.inl hshort)
  rw [if_neg hshort]
  have hconfig : 0 + 9 ≤ totalLen.toNat := Nat.le_of_not_lt hshort
  obtain ⟨hrun, hreads⟩ := walk_spec totalLen visitInterface id buf hfuel (none, none)
  rw [visitAll_interfaces, ← interfacesFound] at hrun
  rw [visitsInside_interfaces] at hreads
  simp only [reads_bind, hrun, List.forall_mem_append, hreads,
    forall_mem_copy buf 0 (by decide : 0 < 9), hconfig, true_and, hshort, false_or]
  refine and_congr_right fun hinterfaces => ?_
  obtain ⟨hnone, hfirst⟩ | ⟨off, first, hsome, hfirst, hcopy⟩ := interfacesFound_cases buf totalLen
  · rw [hfirst, hnone]
    simp
  · obtain ⟨hrun', hreads'⟩ := walk_spec totalLen (visitEndpoint (copyBytes buf off 9))
      (fun _ => none) buf hfuel false
    rw [visitsInside_endpoints _ _ _ hinterfaces.mem] at hreads'
    rw [hfirst]
    simp only [hcopy, reads_bind, List.forall_mem_append, hreads', hrun', hsome, Option.some.injEq,
      forall_eq']
    refine and_iff_left ?_
    cases visitAll (visitEndpoint (copyBytes buf off 9)) (fun _ => none) buf false
      (descriptorOffsets buf totalLen.toNat 0) with
    | none => exact fun i hi => absurd hi List.not_mem_nil
    | some ep => exact fun i hi => absurd hi List.not_mem_nil

end Parse

/- More rounds than either loop makes. -/
def maxRounds : ℕ := 65536

/- The parser comes to an end and reads nothing behind the blob. -/
structure ParsesSafely (buf : ℕ → UInt8) (totalLen : UInt16) (dev : UsbDevice) : Prop where
  terminates : (parseReads maxRounds totalLen dev).run buf ≠ none
  inside : ∀ i ∈ (parseReads maxRounds totalLen dev).reads buf, i < totalLen.toNat

/-- Both loops always end. The parser stays inside the blob exactly when the
blob has room for what is read of its interface descriptors and of the endpoint
descriptors in the chosen block. -/
theorem parsesSafely_iff (buf : ℕ → UInt8) (totalLen : UInt16) (dev : UsbDevice) :
    ParsesSafely buf totalLen dev ↔ totalLen < 9 ∨ BlobRoom buf totalLen := by
  have hfuel : 65535 < maxRounds := by decide
  rw [← parseReads_inside hfuel buf totalLen dev]
  constructor
  · exact fun h => h.inside
  · intro h
    refine ⟨?_, h⟩
    rw [parseReads_run hfuel]
    exact Option.some_ne_none _

/- A memory that holds some bytes. -/
def blobOf (bytes : Bytes) : ℕ → UInt8 := byteAt bytes

/- A configuration descriptor and an interface descriptor of two bytes: the
first loop copies nine from there. -/
def shortInterface : Bytes := [9, 2, 11, 0, 1, 1, 0, 0x80, 50, 2, 4]

theorem short_interface_read_over :
    ¬ParsesSafely (blobOf shortInterface) 11 ⟨1, [], [], [], [], fun _ => []⟩ := by
  intro h
  have hin := h.inside 11 (by decide +kernel)
  exact absurd hin (by decide)

end CasseOS.Usb
