import CasseOS.Usb.Polling

/-! # The slots of a pipe, opened and closed (`drivers/usb/uhci/hid_kbd.c`)

The loops of `place_qh_every_interval` and `uhci_kbd_close` as they are written, with
a counter of 16 bits. Their condition `f < 1024` never fails, so they end at the
`break` only; both visit the orbit of the first slot, and that is a class modulo the
greatest common divisor of the interval and 1024. -/

namespace CasseOS.Usb

/- `p->first_slot`. -/
def firstFrame (p : KbdPipe) : UInt16 := UInt16.ofNat p.firstSlot.val

/- `(uint16_t)((f + p->interval) % 1024)`; the sum is an `int`. -/
def nextFrame (p : KbdPipe) (f : UInt16) : UInt16 :=
  UInt16.ofNat ((f.toNat + p.interval.toNat) % 1024)

section Loops
variable {S : Type*} (p : KbdPipe) (body : Slot → S → S)

/-- The loop of `place_qh_every_interval` (`hid_kbd.c:69-75`) from `f` on. -/
def placeLoop : ℕ → UInt16 → S → Option S
  | 0, _, _ => none
  | fuel + 1, f, s =>
    if h : f.toNat < 1024 then
      if p.interval = 0 then some s
      else
        let s := body ⟨f.toNat, h⟩ s
        if nextFrame p f = firstFrame p then some s else placeLoop fuel (nextFrame p f) s
    else some s

/-- The loop of `uhci_kbd_close` (`hid_kbd.c:156-159`) from `f` on. -/
def closeLoop : ℕ → UInt16 → S → Option S
  | 0, _, _ => none
  | fuel + 1, f, s =>
    if h : f.toNat < 1024 then
      let s := body ⟨f.toNat, h⟩ s
      if nextFrame p f = firstFrame p then some s else closeLoop fuel (nextFrame p f) s
    else some s

/- The two loops differ in a test that is never met. -/
theorem placeLoop_eq (hp : p.interval ≠ 0) (fuel : ℕ) (f : UInt16) (s : S) :
    placeLoop p body fuel f s = closeLoop p body fuel f s := by
  induction fuel generalizing f s with
  | zero => rfl
  | succ fuel ih =>
    rw [placeLoop, closeLoop]
    simp only [if_neg hp, ih]

theorem toNat_slot (f : Slot) : (UInt16.ofNat f.val).toNat = f.val :=
  UInt16.toNat_ofNat_of_lt' (Nat.lt_trans f.isLt (by decide))

theorem nextFrame_slot (f : Slot) :
    nextFrame p (UInt16.ofNat f.val) = UInt16.ofNat (nextSlot p.interval f).val := by
  rw [nextFrame, toNat_slot]
  rfl

theorem slot_inj {f g : Slot} : UInt16.ofNat f.val = UInt16.ofNat g.val ↔ f = g := by
  constructor
  · intro h
    have hval := congrArg UInt16.toNat h
    rw [toNat_slot, toNat_slot] at hval
    exact Fin.ext hval
  · intro h
    rw [h]

/- The counter stays a slot. -/
theorem closeLoop_eq_walk (fuel : ℕ) (f : Slot) (s : S) :
    closeLoop p body fuel (UInt16.ofNat f.val) s =
      Orbit.walk (nextSlot p.interval) p.firstSlot body fuel f s := by
  induction fuel generalizing f s with
  | zero => rfl
  | succ fuel ih =>
    have hin : (UInt16.ofNat f.val).toNat < 1024 := by
      rw [toNat_slot]
      exact f.isLt
    have hslot : (⟨(UInt16.ofNat f.val).toNat, hin⟩ : Slot) = f := Fin.ext (toNat_slot f)
    rw [closeLoop, dif_pos hin, hslot, nextFrame_slot, Orbit.walk]
    simp only [firstFrame, slot_inj, ih]

end Loops

/-! ### The slots that are visited -/

/- Each slot that is congruent to the first, once. -/
structure OnceEach (p : KbdPipe) (visited : List Slot) : Prop where
  nodup : visited.Nodup
  mem_iff : ∀ f, f ∈ visited ↔ p.firstSlot.val ≡ f.val [MOD Nat.gcd p.interval.toNat 1024]

/- Both loops end within so many rounds, and run their body on these slots in turn. -/
def LoopsVisit (p : KbdPipe) (visited : List Slot) : Prop :=
  ∀ fuel, visited.length ≤ fuel → ∀ {S : Type} (body : Slot → S → S) (s : S),
    placeLoop p body fuel (firstFrame p) s = some (visited.foldl (fun s f => body f s) s) ∧
      closeLoop p body fuel (firstFrame p) s = some (visited.foldl (fun s f => body f s) s)

/- A call of `uhci_kbd_open_interrupt_in` that succeeds and leaves this pipe. -/
def Opens (st : Uhci) (i : Fin uhciMaxKbdPipes) (p : KbdPipe) (st₁ : Uhci) : Prop :=
  st₁.pipes i = p ∧ ∃ (v : OpenWorld) (ioBase : UInt16)
    (devAddr endpointAddress intervalFrames : UInt8) (wMaxPacket : UInt16) (keyboardDevIndex : ℤ),
    uhciKbdOpenInterruptIn v ioBase devAddr endpointAddress intervalFrames wMaxPacket
      keyboardDevIndex st = some (st₁, (i.val : ℤ))

section Visited
variable {p : KbdPipe}

theorem onceEach_scheduleSlots (hp : p.interval ≠ 0) : OnceEach p (scheduleSlots p) := by
  refine ⟨?_, mem_scheduleSlots hp⟩
  rw [scheduleSlots_eq hp]
  exact Orbit.nodup_orbit _ _

theorem loopsVisit_scheduleSlots (hp : p.interval ≠ 0) : LoopsVisit p (scheduleSlots p) := by
  intro fuel hfuel S body s
  rw [scheduleSlots_eq hp, List.length_map, List.length_range] at hfuel
  have hper : Function.IsPeriodicPt (nextSlot p.interval) 1024 p.firstSlot :=
    nextSlot_back p.interval p.firstSlot
  have hclose : closeLoop p body fuel (firstFrame p) s =
      some ((scheduleSlots p).foldl (fun s f => body f s) s) := by
    rw [firstFrame, closeLoop_eq_walk, scheduleSlots_eq hp, List.foldl_map]
    exact Orbit.walk_eq body s (hper.minimalPeriod_pos (by decide))
      (Function.iterate_minimalPeriod ..) hfuel
  exact ⟨(placeLoop_eq p body hp fuel (firstFrame p) s).trans hclose, hclose⟩

/- The index that is returned is that of the pipe that was set up. -/
theorem Opens.opened {st st₁ : Uhci} {i : Fin uhciMaxKbdPipes} (h : Opens st i p st₁) :
    Opened st i p st₁ := by
  obtain ⟨hpipe, v, ioBase, devAddr, endpointAddress, intervalFrames, wMaxPacket, devIndex, he⟩ := h
  unfold uhciKbdOpenInterruptIn at he
  cases hfree : freePipe st with
  | none =>
    rw [hfree] at he
    have hindex : (-1 : ℤ) = i.val := congrArg Prod.snd (Option.some.inj he)
    omega
  | some j =>
    rw [hfree] at he
    dsimp only at he
    obtain ⟨st', he', hfail⟩ | ⟨-, st', he', hopened⟩ := openPipe_cases v j
      (newPipe ioBase devAddr endpointAddress intervalFrames devIndex) st rfl rfl
    · have hindex : (-1 : ℤ) = i.val := congrArg Prod.snd (Option.some.inj (he'.symm.trans he))
      omega
    · have hsame := Option.some.inj (he'.symm.trans he)
      have hstate : st' = st₁ := congrArg Prod.fst hsame
      have hindex : (j.val : ℤ) = i.val := congrArg Prod.snd hsame
      have hi : j = i := Fin.ext (Int.ofNat.inj hindex)
      rw [hstate, hi] at hopened
      rw [hopened.pipe_self] at hpipe
      rwa [hpipe] at hopened

end Visited

/-- Opening and closing a pipe with any interval and first slot: both loops end, after
the same slots, and closing takes out of any frame list what opening has put there. -/
theorem open_close_same_slots (p : KbdPipe) (hp : p.interval ≠ 0) :
    ∃ visited, OnceEach p visited ∧ LoopsVisit p visited ∧
      (∀ st i st₁, Opens st i p st₁ →
        ∀ f, st₁.frameList f = if f ∈ visited then qhWord p.qh else st.frameList f) ∧
      ∀ st i, st.pipes i = p → p.inUse → ∃ st₁, uhciKbdClose (i.val : ℤ) st = some st₁ ∧
        ∀ f, st₁.frameList f = if f ∈ visited then terminate else st.frameList f := by
  refine ⟨scheduleSlots p, onceEach_scheduleSlots hp, loopsVisit_scheduleSlots hp, ?_, ?_⟩
  · intro st i st₁ hopens
    exact hopens.opened.frames
  · intro st i hpipe huse
    rw [← hpipe] at huse
    obtain ⟨st₁, hclose, hclosed⟩ := uhciKbdClose_used i st huse
    rw [hpipe] at hclosed
    exact ⟨st₁, hclose, hclosed.frames⟩

/- The pipe that is left by the call below: it is met in every 32nd slot. -/
def pipe96 : KbdPipe :=
  openedPipe ⟨0x2010, 0x2020, 0x2030, 0⟩ (newPipe 0xC000 1 0x81 96 0)

theorem open_close_same_slots_ninety_six : ∃ visited st₁ st₂, OnceEach pipe96 visited ∧
    uhciKbdOpenInterruptIn ⟨0x2010, 0x2020, 0x2030, 0⟩ 0xC000 1 0x81 96 8 0
      (uhciInitializeFrameList fun _ => none) = some (st₁, 0) ∧
    uhciKbdClose 0 st₁ = some st₂ ∧ ∀ f, st₂.frameList f = terminate := by
  obtain ⟨visited, honce, -, hopen, hclose⟩ := open_close_same_slots pipe96 (by decide)
  have hcall : (uhciKbdOpenInterruptIn ⟨0x2010, 0x2020, 0x2030, 0⟩ 0xC000 1 0x81 96 8 0
      (uhciInitializeFrameList fun _ => none)).all
        (fun r => r.2 = 0 ∧ r.1.pipes 0 = pipe96) = true := by
    decide +kernel
  obtain ⟨st₁, r, hcalled, -⟩ := uhciKbdOpenInterruptIn_cases ⟨0x2010, 0x2020, 0x2030, 0⟩
    0xC000 1 0x81 96 8 0 (uhciInitializeFrameList fun _ => none)
  rw [hcalled] at hcall
  obtain ⟨hr, hpipe⟩ := of_decide_eq_true hcall
  dsimp only at hr
  rw [hr] at hcalled
  have hframes := hopen _ 0 st₁ ⟨hpipe, _, _, _, _, _, _, _, hcalled⟩
  obtain ⟨st₂, hclosed, hcleared⟩ := hclose st₁ 0 hpipe rfl
  refine ⟨visited, st₁, st₂, honce, hcalled, hclosed, fun f => ?_⟩
  rw [hcleared, hframes]
  split
  · rfl
  · rfl

end CasseOS.Usb
