import CasseOS.Usb.Effects

/-! # How often a keyboard is polled

`place_qh_every_interval` puts the QH of a pipe into the entries it meets on its
way around the frame list. The way does not end at the end of the list: it goes
on until it comes back to its first entry, and by then it has met every entry
that is congruent to the first modulo the greatest common divisor of the interval
and 1024. -/

namespace CasseOS.Usb

/- The next entry with `word` after entry `f`, going around, is `d` entries on. -/
structure IsGap (st : Uhci) (word : UInt32) (f : Slot) (d : ℕ) : Prop where
  pos : 0 < d
  next : st.frameList (slotOf (f.val + d)) = word
  between : ∀ e, 0 < e → e < d → st.frameList (slotOf (f.val + e)) ≠ word

/- From every entry with `word` it is `interval` frames to the next one, but for one
entry at most, from which it is less. -/
def PolledEvery (st : Uhci) (word : UInt32) (interval : ℕ) : Prop :=
  ∃ last : Slot, ∀ f, st.frameList f = word →
    ∃ d, IsGap st word f d ∧ (f ≠ last → d = interval) ∧ d ≤ interval

theorem IsGap.unique {st : Uhci} {word : UInt32} {f : Slot} {d d' : ℕ} (h : IsGap st word f d)
    (h' : IsGap st word f d') : d = d' := by
  obtain hlt | heq | hlt := Nat.lt_trichotomy d d'
  · exact absurd h.next (h'.between d h.pos hlt)
  · exact heq
  · exact absurd h'.next (h.between d' h'.pos hlt)

/-! ### The entries of a schedule -/

section Slots
variable {p : KbdPipe}

/- What two entries of the schedule differ by. -/
def stride (p : KbdPipe) : ℕ := Nat.gcd p.interval.toNat 1024

theorem stride_dvd (p : KbdPipe) : stride p ∣ 1024 := Nat.gcd_dvd_right _ _

theorem toNat_interval_pos (hp : p.interval ≠ 0) : 0 < p.interval.toNat :=
  Nat.pos_of_ne_zero fun h => hp (UInt8.toNat.inj h)

theorem stride_pos (p : KbdPipe) : 0 < stride p := Nat.gcd_pos_of_pos_right _ (by decide)

theorem stride_le (hp : p.interval ≠ 0) : stride p ≤ p.interval.toNat :=
  Nat.gcd_le_left _ (toNat_interval_pos hp)

theorem scheduleSlots_eq (hp : p.interval ≠ 0) :
    scheduleSlots p = (List.range (Function.minimalPeriod (nextSlot p.interval) p.firstSlot)).map
      fun j => (nextSlot p.interval)^[j] p.firstSlot := by
  rw [scheduleSlots, everyInterval, if_neg hp,
    Orbit.walk_collect (by decide) (nextSlot_back p.interval p.firstSlot) le_rfl, Option.getD_some]

theorem mem_scheduleSlots (hp : p.interval ≠ 0) (f : Slot) :
    f ∈ scheduleSlots p ↔ p.firstSlot.val ≡ f.val [MOD stride p] := by
  rw [scheduleSlots_eq hp, Orbit.mem_orbit (by decide) (nextSlot_back p.interval p.firstSlot), stride,
    ← Orbit.exists_add_mul_mod (by decide) f.isLt]
  refine exists_congr fun k => ?_
  rw [nextSlot_iterate]
  exact Fin.ext_iff

/- Around the frame list the entries of the schedule lie one stride apart. -/
theorem mem_scheduleSlots_add (hp : p.interval ≠ 0) {f : Slot} (hf : f ∈ scheduleSlots p) (e : ℕ) :
    slotOf (f.val + e) ∈ scheduleSlots p ↔ stride p ∣ e := by
  rw [mem_scheduleSlots hp] at hf ⊢
  have hmod : (slotOf (f.val + e)).val ≡ f.val + e [MOD stride p] :=
    (Nat.mod_modEq (f.val + e) 1024).of_dvd (stride_dvd p)
  have hself : p.firstSlot.val ≡ (slotOf (f.val + e)).val [MOD stride p] ↔
      f.val + 0 ≡ f.val + e [MOD stride p] :=
    ⟨fun h => hf.symm.trans (h.trans hmod), fun h => (hf.trans h).trans hmod.symm⟩
  rw [hself, Nat.ModEq.add_iff_left rfl, ← Nat.modEq_zero_iff_dvd]
  exact ⟨Nat.ModEq.symm, Nat.ModEq.symm⟩

end Slots

/-! ### The gaps -/

section Gaps
variable {st : Uhci} {word : UInt32} {p : KbdPipe}
  (hframes : ∀ f, st.frameList f = word ↔ f ∈ scheduleSlots p) (hp : p.interval ≠ 0)
include hframes hp

theorem isGap_stride {f : Slot} (hf : st.frameList f = word) : IsGap st word f (stride p) := by
  have hslots := mem_scheduleSlots_add hp ((hframes f).mp hf)
  refine ⟨stride_pos p, (hframes _).mpr ((hslots _).mpr dvd_rfl), fun e hpos hlt h => ?_⟩
  have hdvd := (hslots e).mp ((hframes _).mp h)
  exact absurd (Nat.le_of_dvd hpos hdvd) (Nat.not_le.mpr hlt)

/- With a stride below the interval two entries are already too many. -/
theorem polledEvery_iff : PolledEvery st word p.interval.toNat ↔ stride p = p.interval.toNat := by
  constructor
  · rintro ⟨last, hgaps⟩
    have hfirst : st.frameList p.firstSlot = word :=
      (hframes _).mpr ((mem_scheduleSlots hp _).mpr rfl)
    have hnext := (isGap_stride hframes hp hfirst).next
    obtain ⟨f, hf, hne⟩ : ∃ f, st.frameList f = word ∧ f ≠ last := by
      by_cases hlast : p.firstSlot = last
      · refine ⟨_, hnext, fun h => ?_⟩
        rw [← hlast, Fin.ext_iff] at h
        have hval : (p.firstSlot.val + stride p) % 1024 = p.firstSlot.val := h
        have hpos := stride_pos p
        have hle := stride_le hp
        have hlt : p.interval.toNat < 256 := p.interval.toNat_lt
        have hslot := p.firstSlot.isLt
        omega
      · exact ⟨_, hfirst, hlast⟩
    obtain ⟨d, hd, heq, -⟩ := hgaps f hf
    rw [← heq hne, hd.unique (isGap_stride hframes hp hf)]
  · intro h
    refine ⟨slotOf 0, fun f hf => ⟨stride p, isGap_stride hframes hp hf, fun _ => h, h.le⟩⟩

end Gaps

/- The pipe with its first entry. -/
def placedPipe (frnum : UInt16) (p : KbdPipe) : KbdPipe :=
  {p with firstSlot := slotOf ((frnum &&& 0x7FF).toNat + 1)}

/- From an empty frame list the entries that lead to the QH are those of the schedule. -/
theorem place_frames (frnum : UInt16) (i : Fin uhciMaxKbdPipes) (st : Uhci)
    (hempty : ∀ f, st.frameList f = terminate) :
    ∃ st₁, placeQhEveryInterval frnum i st = some st₁ ∧
      ∀ f, st₁.frameList f = qhWord (st.pipes i).qh ↔
        f ∈ scheduleSlots (placedPipe frnum (st.pipes i)) := by
  let p := placedPipe frnum (st.pipes i)
  refine ⟨(st.setPipe i p).setFrames (scheduleSlots p) (qhWord p.qh),
    writeSchedule_eq p (qhWord p.qh) (st.setPipe i p), fun f => ?_⟩
  have hother : (st.setPipe i p).frameList f = terminate := hempty f
  rw [setFrames_apply, hother]
  split_ifs with hf
  · exact ⟨fun _ => hf, fun _ => rfl⟩
  · exact ⟨fun h => absurd h.symm (qhWord_ne_terminate p.qh), fun h => absurd h hf⟩

/- The interval that was asked for is kept if and only if it divides 1024; otherwise
the keyboard is polled more often. -/
theorem polled_at_interval (frnum : UInt16) (i : Fin uhciMaxKbdPipes) (st : Uhci)
    (hempty : ∀ f, st.frameList f = terminate) (hp : (st.pipes i).interval ≠ 0) :
    ∃ st₁, placeQhEveryInterval frnum i st = some st₁ ∧
      (PolledEvery st₁ (qhWord (st.pipes i).qh) (st.pipes i).interval.toNat ↔
        (st.pipes i).interval.toNat ∣ 1024) ∧
      ((st.pipes i).interval.toNat ∣ 1024 → ∀ f, st₁.frameList f = qhWord (st.pipes i).qh →
        IsGap st₁ (qhWord (st.pipes i).qh) f (st.pipes i).interval.toNat) := by
  obtain ⟨st₁, hplace, hframes⟩ := place_frames frnum i st hempty
  have hp' : (placedPipe frnum (st.pipes i)).interval ≠ 0 := hp
  have hdvd : stride (placedPipe frnum (st.pipes i)) = (st.pipes i).interval.toNat ↔
      (st.pipes i).interval.toNat ∣ 1024 := Nat.gcd_eq_left_iff_dvd
  refine ⟨st₁, hplace, (polledEvery_iff hframes hp').trans hdvd, fun h f hf => ?_⟩
  have hgap := isGap_stride hframes hp' hf
  rw [hdvd.mpr h] at hgap
  exact hgap

/- The state after initialisation, with one pipe. -/
def onePipe (interval : UInt8) : Uhci :=
  (uhciInitializeFrameList fun _ => none).setPipe (Fin.ofNat 4 0)
    {inUse := true, interval := interval, qh := 0x1050}

/- An interval of 8 frames is kept. -/
theorem polled_at_interval_eight :
    ∃ st₁, placeQhEveryInterval 0 (Fin.ofNat 4 0) (onePipe 8) = some st₁ ∧
      PolledEvery st₁ (qhWord 0x1050) 8 := by
  obtain ⟨st₁, hplace, hevery, -⟩ :=
    polled_at_interval 0 (Fin.ofNat 4 0) (onePipe 8) (fun _ => rfl) (by decide)
  exact ⟨st₁, hplace, hevery.mpr (by decide)⟩

/- A keyboard that asks for 10 frames is polled every other frame. -/
theorem interval_ten_not_kept :
    ¬ ∀ (interval : UInt8) (frnum : UInt16), interval ≠ 0 →
      ∃ st₁, placeQhEveryInterval frnum (Fin.ofNat 4 0) (onePipe interval) = some st₁ ∧
        PolledEvery st₁ (qhWord 0x1050) interval.toNat := by
  intro h
  obtain ⟨st₁, hplace, hpolled⟩ := h 10 0 (by decide)
  obtain ⟨st₂, hplace₂, hframes⟩ := place_frames 0 (Fin.ofNat 4 0) (onePipe 10) fun _ => rfl
  have heq : st₂ = st₁ := Option.some.inj (hplace₂.symm.trans hplace)
  rw [heq] at hframes
  exact absurd ((polledEvery_iff hframes (by decide)).mp hpolled) (by decide)

end CasseOS.Usb
