import CasseOS.Usb.BlobReads

/-! # Well-formed configurations

A configuration is a list of descriptors, sent one after the other. What the
parser makes of a well-formed one is said here in terms of that list: which
interface it chooses, and which endpoint. -/

namespace CasseOS.Usb

/-! ### Descriptors in a list -/

def descType (d : Bytes) : UInt8 := byteAt d 1

def isInterface (d : Bytes) : Bool := descType d = usbDescTypeInterface

def isEndpoint (d : Bytes) : Bool := descType d = usbDescTypeEndpoint

def isInterruptIn (d : Bytes) : Bool :=
  endpointAttributes d &&& 0x3 = 0x3 ∧ endpointAddress d &&& 0x80 ≠ 0

/- Each length byte is the length, and the structures fit. -/
structure WellFormed (descs : List Bytes) : Prop where
  config : ∃ config rest, descs = config :: rest ∧ config.length = 9 ∧
    descType config = usbDescTypeConfiguration.toUInt8
  lengths : ∀ d ∈ descs, (byteAt d 0).toNat = d.length ∧ 2 ≤ d.length
  interfaces : ∀ d ∈ descs, isInterface d = true → 9 ≤ d.length
  endpoints : ∀ d ∈ descs, isEndpoint d = true → 7 ≤ d.length
  total : descs.flatten.length ≤ 65535

/- The blob holds the descriptors. -/
def Holds (buf : ℕ → UInt8) (off : ℕ) (bytes : Bytes) : Prop :=
  ∀ i < bytes.length, buf (off + i) = byteAt bytes i

/- The last boot keyboard interface, or else the first interface. -/
def chosenDescriptor (descs : List Bytes) : Option Bytes := chosenOf isInterface isBootKeyboard descs

def SameInterface (chosen d : Bytes) : Prop :=
  interfaceNumber d = interfaceNumber chosen ∧ alternateSetting d = alternateSetting chosen

/- The last interface among the descriptors has the chosen number and alternate
setting. -/
def InBlock (chosen : Bytes) (before : List Bytes) : Prop :=
  ∃ pre d mid, before = pre ++ d :: mid ∧ isInterface d = true ∧ SameInterface chosen d ∧
    ∀ e ∈ mid, isInterface e = false

/- An interrupt IN endpoint of the chosen interface, and what stands before it. -/
structure BlockEndpoint (descs : List Bytes) (chosen : Bytes) (before : List Bytes) (ep : Bytes) :
    Prop where
  split : ∃ post, descs = before ++ ep :: post
  block : InBlock chosen before
  endpoint : isEndpoint ep = true
  interruptIn : isInterruptIn ep = true

/-! ### Where the descriptors stand -/

def placed : ℕ → List Bytes → List (ℕ × Bytes)
  | _, [] => []
  | off, d :: ds => (off, d) :: placed (off + d.length) ds

theorem placed_snd (off : ℕ) (descs : List Bytes) : (placed off descs).map Prod.snd = descs := by
  induction descs generalizing off with
  | nil => rfl
  | cons d ds ih => rw [placed, List.map_cons, ih]

theorem Holds.append {buf : ℕ → UInt8} {off : ℕ} {l l' : Bytes} (h : Holds buf off (l ++ l')) :
    Holds buf off l ∧ Holds buf (off + l.length) l' := by
  refine ⟨?_, ?_⟩
  · intro i hi
    rw [h i (by rw [List.length_append]; omega)]
    simp [byteAt, List.getElem?_append_left hi]
  · intro i hi
    rw [Nat.add_assoc, h (l.length + i) (by rw [List.length_append]; omega)]
    simp [byteAt, List.getElem?_append_right]

/- The walk visits the descriptors of the list. -/
theorem descriptorOffsets_placed {buf : ℕ → UInt8} (descs : List Bytes) (off total : ℕ)
    (hlengths : ∀ d ∈ descs, (byteAt d 0).toNat = d.length ∧ 2 ≤ d.length)
    (hbuf : Holds buf off descs.flatten) (htotal : off + descs.flatten.length = total) :
    descriptorOffsets buf total off = (placed off descs).map Prod.fst ∧
      ∀ x ∈ placed off descs, Holds buf x.1 x.2 := by
  induction descs generalizing off with
  | nil =>
    refine ⟨descriptorOffsets_stop fun h => ?_, fun x hx => absurd hx List.not_mem_nil⟩
    have hroom := h.1
    rw [List.flatten_nil, List.length_nil] at htotal
    omega
  | cons d ds ih =>
    rw [List.flatten_cons] at hbuf htotal
    rw [List.length_append] at htotal
    obtain ⟨hd, hrest⟩ := hbuf.append
    obtain ⟨hlen, htwo⟩ := hlengths d (List.mem_cons_self ..)
    have hfirst : buf off = byteAt d 0 := hd 0 (by omega)
    have hgo : Visits buf total off := by
      refine ⟨by omega, ?_, by rw [hfirst]; omega⟩
      intro hz
      rw [← hfirst, hz] at hlen
      rw [← hlen] at htwo
      exact absurd htwo (by decide)
    obtain ⟨hoffs, hholds⟩ := ih (off + d.length)
      (fun e he => hlengths e (List.mem_cons_of_mem d he)) hrest (by omega)
    rw [descriptorOffsets_visits hgo, hfirst, hlen, hoffs]
    refine ⟨rfl, ?_⟩
    intro x hx
    obtain rfl | hx := List.mem_cons.mp hx
    · exact hd
    · exact hholds x hx

/-! ### A descriptor in the blob -/

section At
variable {buf : ℕ → UInt8} {off : ℕ} {d : Bytes} (h : Holds buf off d)
include h

theorem Holds.copyBytes {n : ℕ} (hn : n ≤ d.length) : copyBytes buf off n = d.take n := by
  apply List.ext_getElem
  · simp [Usb.copyBytes, hn]
  · intro i hi hi'
    have hlt : i < d.length := by
      rw [List.length_take] at hi'
      omega
    simp [Usb.copyBytes, h i hlt, byteAt, hlt]

theorem Holds.interfaceAt (hlen : 2 ≤ d.length) : interfaceAt buf off = isInterface d := by
  rw [Usb.interfaceAt, isInterface, descType, h 1 hlen]

end At

theorem byteAt_take {d : Bytes} {n i : ℕ} (h : i < n) : byteAt (d.take n) i = byteAt d i := by
  simp [byteAt, h]

/-! ### The choice -/

theorem chosenOf_map_list {A B : Type} (p k : B → Bool) (f : A → B) (l : List A) :
    chosenOf p k (l.map f) = (chosenOf (p ∘ f) (k ∘ f) l).map f := by
  unfold chosenOf
  rw [List.filter_map, List.getLast?_map, List.find?_map]
  exact Option.map_or.symm

theorem chosenOf_congr {A : Type} {p p' k k' : A → Bool} {l : List A}
    (h : ∀ a ∈ l, p a = p' a ∧ (p a = true → k a = k' a)) : chosenOf p k l = chosenOf p' k' l := by
  have hinterfaces : l.filter p = l.filter p' := List.filter_congr fun a ha => (h a ha).1
  have hkeyboards : (l.filter fun a => p a && k a) = l.filter fun a => p' a && k' a := by
    refine List.filter_congr fun a ha => ?_
    obtain ⟨hp, hk⟩ := h a ha
    rw [← hp]
    cases hpa : p a with
    | false => rfl
    | true => rw [hk hpa]
  rw [chosenOf, chosenOf, hkeyboards, ← List.head?_filter, ← List.head?_filter, hinterfaces]

theorem mem_chosenOf {A : Type} {p k : A → Bool} {l : List A} {a : A} (h : chosenOf p k l = some a) :
    a ∈ l ∧ p a = true := by
  unfold chosenOf at h
  cases hlast : (l.filter fun a => p a && k a).getLast? with
  | none =>
    rw [hlast, Option.none_or] at h
    exact ⟨List.mem_of_find?_eq_some h, List.find?_some h⟩
  | some b =>
    rw [hlast, Option.some_or] at h
    cases h
    obtain ⟨hmem, hp⟩ := List.mem_filter.mp (List.mem_of_getLast? hlast)
    exact ⟨hmem, (Bool.and_eq_true _ _ ▸ hp).1⟩

section Parsed
variable {buf : ℕ → UInt8} {descs : List Bytes} {l : List (ℕ × Bytes)}

/- The offsets and the descriptors of a part of the blob. -/
structure Placed (buf : ℕ → UInt8) (l : List (ℕ × Bytes)) : Prop where
  holds : ∀ x ∈ l, Holds buf x.1 x.2
  lengths : ∀ x ∈ l, 2 ≤ x.2.length
  interfaces : ∀ x ∈ l, isInterface x.2 = true → 9 ≤ x.2.length
  endpoints : ∀ x ∈ l, isEndpoint x.2 = true → 7 ≤ x.2.length

theorem Placed.keyboardAt (h : Placed buf l) {x : ℕ × Bytes} (hx : x ∈ l)
    (hinterface : isInterface x.2 = true) : keyboardAt buf x.1 = isBootKeyboard x.2 := by
  rw [Usb.keyboardAt, (h.holds x hx).copyBytes (h.interfaces x hx hinterface)]
  simp only [isBootKeyboard, interfaceClass, interfaceSubclass, interfaceProtocol,
    byteAt_take (by decide : 5 < 9), byteAt_take (by decide : 6 < 9), byteAt_take (by decide : 7 < 9)]
  rfl

/- The interface the parser chooses is the one of the list. -/
theorem Placed.chosen (h : Placed buf l) :
    (chosenOf (interfaceAt buf) (Usb.keyboardAt buf) (l.map Prod.fst)).map (fun off => copyBytes buf off 9)
      = (chosenDescriptor (l.map Prod.snd)).map fun d => d.take 9 := by
  have hcongr : chosenOf (interfaceAt buf ∘ Prod.fst) (Usb.keyboardAt buf ∘ Prod.fst) l =
      chosenOf (isInterface ∘ Prod.snd) (isBootKeyboard ∘ Prod.snd) l := by
    refine chosenOf_congr fun x hx => ?_
    have hinterface := (h.holds x hx).interfaceAt (h.lengths x hx)
    refine ⟨hinterface, fun hp => h.keyboardAt hx (hinterface.symm.trans hp)⟩
  rw [chosenDescriptor, chosenOf_map_list, chosenOf_map_list, hcongr, Option.map_map, Option.map_map]
  refine Option.map_congr fun x hx => ?_
  obtain ⟨hmem, hp⟩ := mem_chosenOf hx
  exact (h.holds x hmem).copyBytes (h.interfaces x hmem hp)

/-! ### The endpoint -/

/- The first interrupt IN endpoint in a block of the chosen interface. -/
def findEndpoint (chosen : Bytes) : Bool → List Bytes → Option Bytes
  | _, [] => none
  | inBlock, d :: ds =>
    if isInterface d then
      findEndpoint chosen (interfaceNumber d = interfaceNumber chosen ∧
        alternateSetting d = alternateSetting chosen) ds
    else if isEndpoint d && inBlock && isInterruptIn d then some d
    else findEndpoint chosen inBlock ds

theorem Placed.tail {x : ℕ × Bytes} (h : Placed buf (x :: l)) : Placed buf l :=
  ⟨fun y hy => h.holds y (List.mem_cons_of_mem x hy), fun y hy => h.lengths y (List.mem_cons_of_mem x hy),
    fun y hy => h.interfaces y (List.mem_cons_of_mem x hy),
    fun y hy => h.endpoints y (List.mem_cons_of_mem x hy)⟩

/- The second loop finds the endpoint of the list. -/
theorem Placed.pass2 (h : Placed buf l) (chosen : Bytes) (inBlock : Bool) :
    pass2 buf (chosen.take 9) inBlock (l.map Prod.fst) =
      (findEndpoint chosen inBlock (l.map Prod.snd)).map fun d => d.take 7 := by
  induction l generalizing inBlock with
  | nil => rfl
  | cons x l ih =>
    obtain ⟨off, d⟩ := x
    have hmem : (off, d) ∈ (off, d) :: l := List.mem_cons_self ..
    have hholds : Holds buf off d := h.holds _ hmem
    have htype : buf (off + 1) = descType d := hholds 1 (h.lengths _ hmem)
    have hinterface_iff : buf (off + 1) = usbDescTypeInterface ↔ isInterface d = true := by
      rw [htype, isInterface, decide_eq_true_eq]
    have hendpoint_iff : buf (off + 1) = usbDescTypeEndpoint ↔ isEndpoint d = true := by
      rw [htype, isEndpoint, decide_eq_true_eq]
    rw [List.map_cons, List.map_cons, Usb.pass2, findEndpoint]
    by_cases hinterface : isInterface d = true
    · have hlen : 9 ≤ d.length := h.interfaces _ hmem hinterface
      rw [if_pos (hinterface_iff.mpr hinterface), if_pos hinterface, hholds.copyBytes hlen, ih h.tail]
      simp only [interfaceNumber, alternateSetting, byteAt_take (by decide : 2 < 9),
        byteAt_take (by decide : 3 < 9)]
      rfl
    rw [if_neg fun hin => hinterface (hinterface_iff.mp hin), if_neg hinterface]
    by_cases hendpoint : isEndpoint d = true ∧ inBlock = true
    · have hlen : 7 ≤ d.length := h.endpoints _ hmem hendpoint.1
      have hiff : endpointAttributes (d.take 7) &&& 0x3 = 0x3 ∧
          endpointAddress (d.take 7) &&& 0x80 ≠ 0 ↔ isInterruptIn d = true := by
        rw [endpointAttributes, endpointAddress, byteAt_take (by decide : 3 < 7),
          byteAt_take (by decide : 2 < 7), isInterruptIn, decide_eq_true_eq]
        rfl
      rw [if_pos ⟨hendpoint_iff.mpr hendpoint.1, hendpoint.2⟩, hholds.copyBytes hlen, hendpoint.1,
        hendpoint.2]
      by_cases hin : isInterruptIn d = true
      · rw [if_pos (hiff.mpr hin), hin]
        rfl
      · rw [if_neg fun hboth => hin (hiff.mp hboth), Bool.eq_false_of_not_eq_true hin]
        exact ih h.tail true
    · rw [if_neg fun hboth => hendpoint ⟨hendpoint_iff.mp hboth.1, hboth.2⟩, if_neg ?_]
      · exact ih h.tail inBlock
      · rw [Bool.and_eq_true, Bool.and_eq_true]
        exact fun hall => hendpoint hall.1

end Parsed

section Block
variable {chosen : Bytes}

/- Whether a block of the chosen interface is open after some descriptors. -/
def blockAfter (chosen : Bytes) (inBlock : Bool) (before : List Bytes) : Bool :=
  before.foldl (fun inBlock d =>
    if isInterface d then interfaceNumber d = interfaceNumber chosen ∧
      alternateSetting d = alternateSetting chosen else inBlock) inBlock

theorem blockAfter_cons (inBlock : Bool) (d : Bytes) (ds : List Bytes) :
    blockAfter chosen inBlock (d :: ds) = blockAfter chosen
      (if isInterface d then interfaceNumber d = interfaceNumber chosen ∧
        alternateSetting d = alternateSetting chosen else inBlock) ds :=
  rfl

theorem inBlock_snoc (before : List Bytes) (d : Bytes) :
    InBlock chosen (before ++ [d]) ↔
      if isInterface d then SameInterface chosen d else InBlock chosen before := by
  constructor
  · rintro ⟨pre, e, mid, hsplit, hinterface, hsame, hmid⟩
    obtain rfl | ⟨mid, f, rfl⟩ := List.eq_nil_or_concat' mid
    · obtain ⟨rfl, hd⟩ := List.append_inj' hsplit rfl
      cases hd
      rw [if_pos hinterface]
      exact hsame
    · rw [← List.cons_append, ← List.append_assoc] at hsplit
      obtain ⟨rfl, hd⟩ := List.append_inj' hsplit rfl
      cases hd
      have hnot : isInterface d = false := hmid d (List.mem_append_right mid (List.mem_singleton_self d))
      rw [if_neg (ne_true_of_eq_false hnot)]
      exact ⟨pre, e, mid, rfl, hinterface, hsame, fun x hx => hmid x (List.mem_append_left _ hx)⟩
  · intro h
    split at h
    next hinterface =>
      exact ⟨before, d, [], rfl, hinterface, h, fun e he => absurd he List.not_mem_nil⟩
    next hnot =>
      obtain ⟨pre, e, mid, rfl, hinterface, hsame, hmid⟩ := h
      refine ⟨pre, e, mid ++ [d], by simp, hinterface, hsame, ?_⟩
      intro x hx
      obtain hx | hx := List.mem_append.mp hx
      · exact hmid x hx
      · rw [List.mem_singleton.mp hx]
        exact Bool.eq_false_of_not_eq_true hnot

theorem blockAfter_iff (before : List Bytes) :
    blockAfter chosen false before = true ↔ InBlock chosen before := by
  induction before using List.reverseRecOn with
  | nil =>
    refine iff_of_false Bool.false_ne_true ?_
    rintro ⟨pre, d, mid, hsplit, -⟩
    simp at hsplit
  | append_singleton before d ih =>
    rw [inBlock_snoc, ← ih, blockAfter, List.foldl_concat]
    split
    · exact decide_eq_true_iff
    · exact Iff.rfl

/- The endpoint `ep` would be taken with the flag at `inBlock`. -/
def Taken (inBlock : Bool) (ep : Bytes) : Prop :=
  isEndpoint ep = true ∧ inBlock = true ∧ isInterruptIn ep = true

theorem isEndpoint_not_interface {d : Bytes} (h : isEndpoint d = true) : isInterface d = false := by
  rw [isEndpoint, decide_eq_true_eq] at h
  rw [isInterface, h]
  decide

theorem findEndpoint_none (l : List Bytes) (inBlock : Bool) (h : findEndpoint chosen inBlock l = none)
    (before : List Bytes) (ep : Bytes) (post : List Bytes) (hsplit : l = before ++ ep :: post) :
    ¬Taken (blockAfter chosen inBlock before) ep := by
  induction l generalizing inBlock before with
  | nil => simp at hsplit
  | cons d ds ih =>
    rw [findEndpoint] at h
    cases before with
    | nil =>
      cases hsplit
      rintro ⟨hendpoint, hin, htaken⟩
      have hflag : inBlock = true := hin
      rw [isEndpoint_not_interface hendpoint, hendpoint, hflag, htaken] at h
      cases h
    | cons e before =>
      rw [List.cons_append] at hsplit
      cases hsplit
      rw [blockAfter_cons]
      split at h
      next hinterface =>
        rw [if_pos hinterface]
        exact ih _ h before rfl
      next hinterface =>
        split at h
        · cases h
        · rw [if_neg hinterface]
          exact ih _ h before rfl

theorem findEndpoint_some (l : List Bytes) (inBlock : Bool) {ep : Bytes}
    (h : findEndpoint chosen inBlock l = some ep) :
    ∃ before post, l = before ++ ep :: post ∧ Taken (blockAfter chosen inBlock before) ep ∧
      findEndpoint chosen inBlock before = none := by
  induction l generalizing inBlock with
  | nil => cases h
  | cons d ds ih =>
    rw [findEndpoint] at h
    split at h
    next hinterface =>
      obtain ⟨before, post, rfl, htaken, hnone⟩ := ih _ h
      refine ⟨d :: before, post, rfl, ?_, ?_⟩
      · rw [blockAfter_cons, if_pos hinterface]
        exact htaken
      · rw [findEndpoint, if_pos hinterface]
        exact hnone
    next hinterface =>
      split at h
      next hall =>
        cases h
        rw [Bool.and_eq_true, Bool.and_eq_true] at hall
        exact ⟨[], ds, rfl, ⟨hall.1.1, hall.1.2, hall.2⟩, rfl⟩
      next hall =>
        obtain ⟨before, post, rfl, htaken, hnone⟩ := ih _ h
        refine ⟨d :: before, post, rfl, ?_, ?_⟩
        · rw [blockAfter_cons, if_neg hinterface]
          exact htaken
        · rw [findEndpoint, if_neg hinterface, if_neg hall]
          exact hnone

theorem taken_iff {l before post : List Bytes} {ep : Bytes} (hsplit : l = before ++ ep :: post) :
    Taken (blockAfter chosen false before) ep ↔ BlockEndpoint l chosen before ep := by
  constructor
  · rintro ⟨hendpoint, hblock, hin⟩
    exact ⟨⟨post, hsplit⟩, (blockAfter_iff before).mp hblock, hendpoint, hin⟩
  · intro h
    exact ⟨h.endpoint, (blockAfter_iff before).mpr h.block, h.interruptIn⟩

theorem no_blockEndpoint {l : List Bytes} (h : findEndpoint chosen false l = none)
    (before : List Bytes) (ep : Bytes) : ¬BlockEndpoint l chosen before ep := by
  intro hep
  obtain ⟨post, hsplit⟩ := hep.split
  exact findEndpoint_none l false h before ep post hsplit ((taken_iff hsplit).mpr hep)

/- The first interrupt IN endpoint of the chosen interface. -/
def FirstEndpoint (descs : List Bytes) (chosen ep : Bytes) : Prop :=
  ∃ before, BlockEndpoint descs chosen before ep ∧
    ∀ before' ep', ¬BlockEndpoint before chosen before' ep'

theorem findEndpoint_first {l : List Bytes} {ep : Bytes} (h : findEndpoint chosen false l = some ep) :
    FirstEndpoint l chosen ep := by
  obtain ⟨before, post, hsplit, htaken, hnone⟩ := findEndpoint_some l false h
  exact ⟨before, (taken_iff hsplit).mp htaken, no_blockEndpoint hnone⟩

end Block

/-! ### The parser on a well-formed configuration -/

section WellFormed
variable {buf : ℕ → UInt8} {descs : List Bytes}

theorem WellFormed.placed (h : WellFormed descs) (hbuf : Holds buf 0 descs.flatten) :
    Placed buf (Usb.placed 0 descs) := by
  have hmem : ∀ x ∈ Usb.placed 0 descs, x.2 ∈ descs := by
    intro x hx
    have hsnd := List.mem_map_of_mem (f := Prod.snd) hx
    rwa [placed_snd] at hsnd
  exact ⟨(descriptorOffsets_placed descs 0 _ h.lengths hbuf rfl).2,
    fun x hx => (h.lengths x.2 (hmem x hx)).2, fun x hx => h.interfaces x.2 (hmem x hx),
    fun x hx => h.endpoints x.2 (hmem x hx)⟩

/- What the parser does, in terms of the list. -/
theorem WellFormed.parse (h : WellFormed descs) (hbuf : Holds buf 0 descs.flatten) (dev : UsbDevice) :
    ∃ config rest, descs = config :: rest ∧
      usbParseConfigBlobIntoDevice buf (UInt16.ofNat descs.flatten.length) dev =
        match chosenDescriptor descs with
        | none => ({dev with configDescriptor := config}, false)
        | some chosen =>
          match findEndpoint chosen false descs with
          | none => ({dev with
              configDescriptor := config
              interfaceDescriptor := chosen.take 9}, false)
          | some ep => ({dev with
              configDescriptor := config
              interfaceDescriptor := chosen.take 9
              endpointDescriptor := ep.take 7}, true) := by
  obtain ⟨config, rest, hdescs, hnine, -⟩ := h.config
  refine ⟨config, rest, hdescs, ?_⟩
  have hplaced := h.placed hbuf
  obtain ⟨hoffs, -⟩ := descriptorOffsets_placed descs 0 _ h.lengths hbuf (Nat.zero_add _)
  have htotal : (UInt16.ofNat descs.flatten.length).toNat = descs.flatten.length :=
    UInt16.toNat_ofNat_of_lt' (Nat.lt_succ_of_le h.total)
  have hlong : ¬UInt16.ofNat descs.flatten.length < 9 := by
    rw [UInt16.lt_iff_toNat_lt, htotal, hdescs, List.flatten_cons, List.length_append, hnine]
    exact Nat.not_lt_of_le (Nat.le_add_right 9 _)
  have hconfig : copyBytes buf 0 9 = config := by
    rw [hdescs, List.flatten_cons] at hbuf
    rw [hbuf.append.1.copyBytes hnine.ge, ← hnine, List.take_length]
  have hchosen := hplaced.chosen
  rw [placed_snd, ← hoffs] at hchosen
  have hfound := interfacesFound_chosen buf (UInt16.ofNat descs.flatten.length)
  rw [chosenInterface, htotal, hchosen, interfacesFound, htotal] at hfound
  rw [usbParseConfigBlobIntoDevice, if_neg hlong, htotal, hconfig]
  dsimp only
  generalize (descriptorOffsets buf descs.flatten.length 0).foldl (pass1 buf) (none, none) = acc at *
  obtain ⟨first, best⟩ := acc
  cases first with
  | none =>
    rw [Option.map_eq_none_iff.mp hfound.symm]
  | some first =>
    obtain ⟨chosen, hsome, htake⟩ := Option.map_eq_some_iff.mp hfound.symm
    have hpass := hplaced.pass2 chosen false
    rw [placed_snd, ← hoffs] at hpass
    rw [hsome]
    dsimp only at htake ⊢
    rw [← htake, hpass]
    cases findEndpoint chosen false descs with
    | none => rfl
    | some ep => rfl

/-- On a well-formed configuration the parser succeeds exactly when there is an
interface and the chosen one has an interrupt IN endpoint in one of its blocks.
Then the entry gets the configuration, the chosen interface and the first such
endpoint, and keeps the rest. -/
theorem parse_wellFormed (h : WellFormed descs) (hbuf : Holds buf 0 descs.flatten) (dev : UsbDevice) :
    let r := usbParseConfigBlobIntoDevice buf (UInt16.ofNat descs.flatten.length) dev
    (r.2 = true ↔ ∃ chosen, chosenDescriptor descs = some chosen ∧
      ∃ before ep, BlockEndpoint descs chosen before ep) ∧
    (r.2 = true → ∃ config rest chosen ep, descs = config :: rest ∧
      chosenDescriptor descs = some chosen ∧ FirstEndpoint descs chosen ep ∧
      r.1 = {dev with
        configDescriptor := config
        interfaceDescriptor := chosen.take 9
        endpointDescriptor := ep.take 7}) := by
  obtain ⟨config, rest, hdescs, hparse⟩ := h.parse hbuf dev
  dsimp only
  rw [hparse]
  cases hchosen : chosenDescriptor descs with
  | none => simp
  | some chosen =>
    dsimp only
    cases hfind : findEndpoint chosen false descs with
    | none =>
      refine ⟨iff_of_false Bool.false_ne_true ?_, fun hfalse => absurd hfalse Bool.false_ne_true⟩
      rintro ⟨_, ⟨⟩, before, ep, hep⟩
      exact no_blockEndpoint hfind before ep hep
    | some ep =>
      have hfirst := findEndpoint_first hfind
      refine ⟨iff_of_true rfl ?_, fun _ => ⟨config, rest, chosen, ep, hdescs, rfl, hfirst, rfl⟩⟩
      obtain ⟨before, hep, -⟩ := hfirst
      exact ⟨chosen, rfl, before, ep, hep⟩

end WellFormed

/- A keyboard with a HID descriptor between its interface and its endpoint. -/
def keyboardConfiguration : List Bytes :=
  [[9, 2, 34, 0, 1, 1, 0, 0xA0, 50], [9, 4, 0, 0, 1, 3, 1, 1, 0],
    [9, 0x21, 0x11, 1, 0, 1, 0x22, 63, 0], [7, 5, 0x81, 3, 8, 0, 10]]

theorem keyboardConfiguration_wellFormed : WellFormed keyboardConfiguration where
  config := ⟨_, _, rfl, rfl, by decide⟩
  lengths := by decide
  interfaces := by decide
  endpoints := by decide
  total := by decide

theorem parse_keyboardConfiguration :
    (usbParseConfigBlobIntoDevice (blobOf keyboardConfiguration.flatten) 34
      ⟨1, [], [], [], [], fun _ => []⟩).2 = true := by
  have hbuf : Holds (blobOf keyboardConfiguration.flatten) 0 keyboardConfiguration.flatten := by
    intro i _
    rw [Nat.zero_add, blobOf]
  have hblock : InBlock [9, 4, 0, 0, 1, 3, 1, 1, 0] (keyboardConfiguration.take 3) :=
    ⟨[_], _, [_], rfl, by decide, ⟨rfl, rfl⟩, by decide⟩
  have hchosen : chosenDescriptor keyboardConfiguration = some [9, 4, 0, 0, 1, 3, 1, 1, 0] := by
    decide
  have hep : BlockEndpoint keyboardConfiguration [9, 4, 0, 0, 1, 3, 1, 1, 0]
      (keyboardConfiguration.take 3) [7, 5, 0x81, 3, 8, 0, 10] :=
    ⟨⟨[], rfl⟩, hblock, by decide, by decide⟩
  exact (parse_wellFormed keyboardConfiguration_wellFormed hbuf _).1.mpr ⟨_, hchosen, _, _, hep⟩

end CasseOS.Usb
