import CasseOS.Usb.Transfer

/-! # Waiting for a transfer (`uhci_wait_for_transfer_complete`)

The loop sleeps as long as the TD is active, 3000 times at most. It ends in one of
three ways: at a test where the TD is no longer active, at a last test that finds
it active, or at the last test, with no time left, where it is not active. The
last two are not told apart. -/

namespace CasseOS.Usb
variable {polled : ℕ → UInt32}

/-- `td->control_status & 0x800000` (`transfer.c:43`). -/
def Active (status : UInt32) : Prop := status &&& 0x800000 ≠ 0

instance (status : UInt32) : Decidable (Active status) :=
  inferInstanceAs (Decidable (_ ≠ _))

/- `1 << n` is set in the status. -/
abbrev HasBit (status n : UInt32) : Prop := status &&& bit n ≠ 0

/- The test the loop ends with: the first that finds the TD inactive, and otherwise
the one after the last sleep. -/
def lastTest (polled : ℕ → UInt32) : ℕ :=
  ((List.range 3000).find? fun k => ¬ Active (polled k)).getD 3000

/- The numbers of the error bits. -/
def errorBits : List UInt32 := [17, 18, 19, 20, 21, 22]

/- What the result says about a status: -1 stands for a TD that is still active, 1
for success, and otherwise the highest error bit is told, -2 for bit 22 down to -7
for bit 17. -/
structure Classified (status : UInt32) (r : ℤ) : Prop where
  timeout : r = -1 ↔ Active status
  success : ¬ Active status → (∀ n ∈ errorBits, ¬ HasBit status n) → r = 1
  error : ¬ Active status → ∀ n ∈ errorBits, HasBit status n →
    (∀ m ∈ errorBits, n < m → ¬ HasBit status m) → r = (n.toNat : ℤ) - 24

/-! ### The loop -/

theorem waitLoop_sleep {n k : ℕ} (h : Active (polled k)) :
    waitLoop polled (n + 1) k = waitLoop polled n (k + 1) := if_pos h

theorem waitLoop_done {n k : ℕ} (h : ¬ Active (polled k)) :
    waitLoop polled n k = ((n : ℤ), polled k) := by
  cases n with
  | zero => exact if_neg h
  | succ n => exact if_neg h

/- The loop ends at the first test that finds the TD inactive, also if that is the
test after the last sleep. -/
theorem waitLoop_inactive {j n : ℕ} (k : ℕ) (hj : j ≤ n)
    (hactive : ∀ i < j, Active (polled (k + i))) (hdone : ¬ Active (polled (k + j))) :
    waitLoop polled n k = ((n : ℤ) - j, polled (k + j)) := by
  induction j generalizing n k with
  | zero =>
    have hfirst : ¬ Active (polled k) := hdone
    rw [waitLoop_done hfirst, Nat.cast_zero, Int.sub_zero]
    rfl
  | succ j ih =>
    obtain ⟨n, rfl⟩ := Nat.exists_eq_add_of_le' (Nat.le_trans (Nat.le_add_left 1 j) hj)
    have hcomm : ∀ i, k + 1 + i = k + (i + 1) := fun i => by omega
    have hfirst : Active (polled k) := hactive 0 (Nat.succ_pos j)
    have hrest := ih (n := n) (k + 1) (Nat.le_of_succ_le_succ hj)
      (fun i hi => by rw [hcomm]; exact hactive (i + 1) (Nat.succ_lt_succ hi))
      (by rw [hcomm]; exact hdone)
    rw [waitLoop_sleep hfirst, hrest, hcomm, Nat.cast_succ, Nat.cast_succ,
      Int.add_sub_add_right]

theorem waitLoop_active {n : ℕ} (k : ℕ) (hactive : ∀ i ≤ n, Active (polled (k + i))) :
    waitLoop polled n k = (-1, polled (k + n)) := by
  induction n generalizing k with
  | zero => exact if_pos (hactive 0 (Nat.le_refl 0))
  | succ n ih =>
    have hcomm : ∀ i, k + 1 + i = k + (i + 1) := fun i => by omega
    have hfirst : Active (polled k) := hactive 0 (Nat.zero_le _)
    rw [waitLoop_sleep hfirst,
      ih (k + 1) (fun i hi => by rw [hcomm]; exact hactive (i + 1) (Nat.succ_le_succ hi)), hcomm]

/- The last test is the first that finds the TD inactive, or the one at the limit. -/
theorem lastTest_spec (polled : ℕ → UInt32) :
    lastTest polled ≤ 3000 ∧ (∀ i < lastTest polled, Active (polled i)) ∧
      (lastTest polled < 3000 → ¬ Active (polled (lastTest polled))) := by
  rw [lastTest]
  cases h : (List.range 3000).find? fun k => ¬ Active (polled k) with
  | none =>
    rw [List.find?_range_eq_none] at h
    refine ⟨Nat.le_refl _, fun i hi => ?_, fun hlt => absurd hlt (Nat.lt_irrefl _)⟩
    simpa using h i hi
  | some j =>
    rw [List.find?_range_eq_some] at h
    obtain ⟨hj, hmem, hbefore⟩ := h
    refine ⟨Nat.le_of_lt (List.mem_range.mp hmem), fun i hi => ?_, fun _ => by simpa using hj⟩
    simpa using hbefore i hi

/-! ### The result -/

/- With time left the error bits are looked at from the highest on. -/
theorem classified_of_time {status : UInt32} {timeout : ℤ} (ht : 0 < timeout)
    (hdone : ¬ Active status) (hloop : waitLoop polled 3000 0 = (timeout, status)) :
    Classified status (uhciWaitForTransferComplete polled) := by
  simp only [uhciWaitForTransferComplete, hloop, if_neg (Int.not_le.mpr ht)]
  refine ⟨⟨fun h => ?_, fun h => absurd h hdone⟩, fun _ hnone => ?_, fun _ n hn hset high => ?_⟩
  · exfalso
    split_ifs at h <;> exact absurd h (by decide)
  · rw [if_neg (hnone 22 (by decide)), if_neg (hnone 21 (by decide)), if_neg (hnone 20 (by decide)),
      if_neg (hnone 19 (by decide)), if_neg (hnone 18 (by decide)), if_neg (hnone 17 (by decide))]
  · simp only [errorBits, List.mem_cons, List.not_mem_nil, or_false] at hn
    obtain rfl | rfl | rfl | rfl | rfl | rfl := hn
    · rw [if_neg (high 22 (by decide) (by decide)), if_neg (high 21 (by decide) (by decide)),
        if_neg (high 20 (by decide) (by decide)), if_neg (high 19 (by decide) (by decide)),
        if_neg (high 18 (by decide) (by decide)), if_pos hset]
      rfl
    · rw [if_neg (high 22 (by decide) (by decide)), if_neg (high 21 (by decide) (by decide)),
        if_neg (high 20 (by decide) (by decide)), if_neg (high 19 (by decide) (by decide)),
        if_pos hset]
      rfl
    · rw [if_neg (high 22 (by decide) (by decide)), if_neg (high 21 (by decide) (by decide)),
        if_neg (high 20 (by decide) (by decide)), if_pos hset]
      rfl
    · rw [if_neg (high 22 (by decide) (by decide)), if_neg (high 21 (by decide) (by decide)),
        if_pos hset]
      rfl
    · rw [if_neg (high 22 (by decide) (by decide)), if_pos hset]
      rfl
    · rw [if_pos hset]
      rfl

/- Without time left the result is -1. -/
theorem wait_of_no_time {status : UInt32} {timeout : ℤ} (ht : timeout ≤ 0)
    (hloop : waitLoop polled 3000 0 = (timeout, status)) :
    uhciWaitForTransferComplete polled = -1 := by
  simp only [uhciWaitForTransferComplete, hloop, if_pos ht]

/- The TD is given up although it is done, if it is found done at the last test and
not before; in every other case the result is that of the status tested last. -/
theorem wait_classifies :
    Classified (polled (lastTest polled)) (uhciWaitForTransferComplete polled) ↔
      ¬((∀ k < 3000, Active (polled k)) ∧ ¬ Active (polled 3000)) := by
  obtain ⟨hle, hbefore, hdone⟩ := lastTest_spec polled
  have hzero : ∀ i, polled (0 + i) = polled i := fun i => by rw [Nat.zero_add]
  obtain hlt | heq := Nat.lt_or_eq_of_le hle
  · have hloop : waitLoop polled 3000 0 =
        (((3000 : ℕ) : ℤ) - lastTest polled, polled (lastTest polled)) := by
      rw [waitLoop_inactive 0 hle (fun i hi => by rw [hzero]; exact hbefore i hi)
        (by rw [hzero]; exact hdone hlt), hzero]
    have hclass := classified_of_time (by omega) (hdone hlt) hloop
    exact ⟨fun _ h => hdone hlt (h.1 _ hlt), fun _ => hclass⟩
  · rw [heq] at hbefore ⊢
    by_cases hlast : Active (polled 3000)
    · have hloop : waitLoop polled 3000 0 = (-1, polled 3000) := by
        rw [waitLoop_active 0 (fun i hi => ?_), hzero]
        rw [hzero]
        obtain hi | rfl := Nat.lt_or_eq_of_le hi
        · exact hbefore i hi
        · exact hlast
      have hres := wait_of_no_time (by decide) hloop
      have hclass : Classified (polled 3000) (uhciWaitForTransferComplete polled) :=
        ⟨⟨fun _ => hlast, fun _ => hres⟩, fun h => absurd hlast h, fun h => absurd hlast h⟩
      exact ⟨fun _ h => h.2 hlast, fun _ => hclass⟩
    · have hloop : waitLoop polled 3000 0 = (((3000 : ℕ) : ℤ) - (3000 : ℕ), polled 3000) := by
        rw [waitLoop_inactive 0 le_rfl (fun i hi => by rw [hzero]; exact hbefore i hi)
          (by rw [hzero]; exact hlast), hzero]
      have hres := wait_of_no_time (by decide) hloop
      exact ⟨fun h => absurd (h.timeout.mp hres) hlast, fun h => absurd ⟨hbefore, hlast⟩ h⟩

/- A TD that is done at the test after the last sleep, without an error. -/
theorem done_at_limit_times_out :
    ¬ ∀ polled : ℕ → UInt32,
      Classified (polled (lastTest polled)) (uhciWaitForTransferComplete polled) := by
  intro h
  let late : ℕ → UInt32 := fun k => if k < 3000 then 0x800000 else 0
  have hactive : ∀ k < 3000, Active (late k) := fun k hk => by
    have he : late k = 0x800000 := if_pos hk
    rw [he]
    decide
  have hdone : ¬ Active (late 3000) := by decide
  obtain ⟨hle, -, hstop⟩ := lastTest_spec late
  have hlast : lastTest late = 3000 := by
    obtain hlt | heq := Nat.lt_or_eq_of_le hle
    · exact absurd (hactive _ hlt) (hstop hlt)
    · exact heq
  have hloop : waitLoop late 3000 0 = (((3000 : ℕ) : ℤ) - (3000 : ℕ), late (0 + 3000)) :=
    waitLoop_inactive 0 le_rfl (fun i hi => by rw [Nat.zero_add]; exact hactive i hi) hdone
  have hres := wait_of_no_time (by decide) hloop
  have hclass := h late
  rw [hlast] at hclass
  exact hdone (hclass.timeout.mp hres)

end CasseOS.Usb
