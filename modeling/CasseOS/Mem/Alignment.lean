import CasseOS.Mem.HeapSafety

/-! # Alignment of the memory handed out

A block of the free list is handed out from the first aligned address of its
memory on. A block carved from the tail has its header aligned instead, and the
memory begins 16 bytes behind: it is aligned to 16 bytes and to no more. -/

namespace CasseOS.Mem
open CInt

/-! ### Runs with any alignment -/

inductive AllocOp where
  | alloc (alignment size : UInt64)
  | free (ptr : ℕ)
  /-- The owners of the live blocks write them. -/
  | write (value : ℕ → ℕ)

/- The block the search finds is no longer a freed one. -/
def allocStep (b : Buffer) (fuel : ℕ) (st : HeapRun) : AllocOp → Option HeapRun
  | .alloc alignment size =>
    (alignedAlloc b fuel st.heap alignment.toNat size.toNat).map fun r =>
      if r.1 = 0 then {st with heap := r.2}
      else ⟨r.2, ⟨r.1 - headerSize, size.toNat⟩ :: st.live,
        st.freed.eraseP fun h => u64 (size.toNat + headerSize) ≤ st.heap.size h⟩
  | .free ptr => heapStep b fuel st (.free ptr)
  | .write value => heapStep b fuel st (.write value)

/- Requests of at most 65535 bytes; only `NULL` or a live pointer is freed. -/
def ShortRequests (st : HeapRun) : AllocOp → Prop
  | .alloc _ size => HeapOk st (.alloc size.toNat)
  | .free ptr => HeapOk st (.free ptr)
  | .write value => HeapOk st (.write value)

/-! ### Rounding up -/

/- What is missing to the next multiple of `n`. -/
def padTo (n a : ℕ) : ℕ := (n - a % n) % n

theorem padTo_lt {n : ℕ} (hn : 0 < n) (a : ℕ) : padTo n a < n := Nat.mod_lt _ hn

theorem dvd_add_padTo {n : ℕ} (hn : 0 < n) (a : ℕ) : n ∣ a + padTo n a := by
  have hlt := Nat.mod_lt a hn
  obtain hz | hpos := Nat.eq_zero_or_pos (a % n)
  · rw [padTo, hz, Nat.sub_zero, Nat.mod_self, Nat.add_zero]
    exact Nat.dvd_of_mod_eq_zero hz
  · have hdiv := Nat.div_add_mod a n
    have hnext : a + (n - a % n) = n * (a / n + 1) := by
      rw [Nat.mul_succ]
      omega
    rw [padTo, Nat.mod_eq_of_lt (by omega), hnext]
    exact Nat.dvd_mul_right _ _

section Powers
variable {j k : ℕ}

theorem clamp_pow (k : ℕ) : (if 2 ^ k < 8 then 8 else 2 ^ k) = 2 ^ max k 3 := by
  obtain hk | hk := Nat.lt_or_ge k 3
  · have hlt : 2 ^ k < 8 := Nat.pow_lt_pow_right (n := 3) (by decide) hk
    rw [if_pos hlt, Nat.max_eq_right (Nat.le_of_lt hk)]
    rfl
  · have hle : 8 ≤ 2 ^ k := Nat.pow_le_pow_right (n := 2) (by decide) hk
    rw [if_neg (Nat.not_lt.mpr hle), Nat.max_eq_left hk]

theorem pow_and_pred (j : ℕ) : ¬(2 ^ j &&& (2 ^ j - 1) ≠ 0) := by
  rw [Nat.and_two_pow_sub_one_eq_mod, Nat.mod_self]
  exact fun h => h rfl

/- Reduction to 64 bits keeps an address aligned. -/
theorem dvd_u64 (hj : j ≤ 64) {a : ℕ} : 2 ^ j ∣ u64 a ↔ 2 ^ j ∣ a := by
  have hword : 2 ^ j ∣ 18446744073709551616 := pow_dvd_pow (n := 64) 2 hj
  exact Nat.dvd_mod_iff hword

theorem alignUp_eq (hj : j ≤ 64) (a : ℕ) :
    alignUp a (2 ^ j) = u64 (a + (2 ^ j - 1)) / 2 ^ j * 2 ^ j :=
  and_mask (x := u64 (a + (2 ^ j - 1))) hj (Nat.mod_lt _ (by decide))

theorem dvd_alignUp (hj : j ≤ 64) (a : ℕ) : 2 ^ j ∣ alignUp a (2 ^ j) :=
  alignUp_eq hj a ▸ Nat.dvd_mul_left _ _

theorem alignUp_lt (hj : j ≤ 64) (a : ℕ) : alignUp a (2 ^ j) < 18446744073709551616 := by
  have hlt : u64 (a + (2 ^ j - 1)) < 18446744073709551616 := Nat.mod_lt _ (by decide)
  rw [alignUp_eq hj]
  exact Nat.lt_of_le_of_lt (Nat.div_mul_le_self _ _) hlt

/- The padding in front of a new header. -/
theorem headerPadding_eq (a n : ℕ) :
    headerPadding a n = if padTo n a < 16 then u64 (padTo n a + n) else padTo n a := rfl

/- It aligns the header. -/
theorem dvd_add_headerPadding (hj : j ≤ 64) (a : ℕ) : 2 ^ j ∣ a + headerPadding a (2 ^ j) := by
  have hup := dvd_add_padTo (Nat.two_pow_pos j) a
  rw [headerPadding_eq]
  split_ifs
  · have hsum : 2 ^ j ∣ u64 (a + u64 (padTo (2 ^ j) a + 2 ^ j)) := by
      have hred : u64 (a + u64 (padTo (2 ^ j) a + 2 ^ j)) = u64 (a + padTo (2 ^ j) a + 2 ^ j) := by
        rw [u64, u64, u64, Nat.add_mod_mod, Nat.add_assoc]
      rw [hred, dvd_u64 hj]
      exact Nat.dvd_add hup (Nat.dvd_refl _)
    exact (dvd_u64 hj).mp hsum
  · exact hup

theorem headerPadding_lt (hj : j < 64) (a : ℕ) :
    headerPadding a (2 ^ j) < 9223372036854775808 + 16 := by
  have hle : 2 ^ j ≤ 2 ^ 63 := Nat.pow_le_pow_right (by decide) (Nat.le_of_lt_succ hj)
  have hlt := padTo_lt (Nat.two_pow_pos j) a
  rw [headerPadding_eq]
  split_ifs with h
  · rw [u64_of_lt (by omega)]
    omega
  · omega

end Powers

/-! ### The two ways to serve a request -/

section Serve
variable {b : Buffer} {fuel j k : ℕ} {hp : Heap}

/- `aligned_alloc` for a power of two, by the outcome of the search. -/
theorem alignedAlloc_pow (k size : ℕ) :
    alignedAlloc b fuel hp (2 ^ k) size =
      (findFit hp (u64 (size + headerSize)) fuel .head).map fun r =>
        match r with
        | some current => takeFree hp (2 ^ max k 3) current
        | none => carve b hp (2 ^ max k 3) (u64 (size + headerSize)) := by
  simp only [alignedAlloc, clamp_pow, if_neg (pow_and_pred (max k 3))]
  cases findFit hp (u64 (size + headerSize)) fuel .head with
  | none => rfl
  | some r =>
    cases r with
    | none => rfl
    | some current => rfl

theorem alignedAlloc_take {k size : ℕ} {current : Link}
    (h : findFit hp (u64 (size + headerSize)) fuel .head = some (some current)) :
    alignedAlloc b fuel hp (2 ^ k) size = some (takeFree hp (2 ^ max k 3) current) := by
  rw [alignedAlloc_pow, h]
  rfl

theorem alignedAlloc_carve {k size : ℕ}
    (h : findFit hp (u64 (size + headerSize)) fuel .head = some none) :
    alignedAlloc b fuel hp (2 ^ k) size =
      some (carve b hp (2 ^ max k 3) (u64 (size + headerSize))) := by
  rw [alignedAlloc_pow, h]
  rfl

/- From the free list the first aligned address behind the header is handed out. -/
theorem takeFree_fst (hj : j ≤ 64) (current : Link) :
    (takeFree hp (2 ^ j) current).1 = alignUp (u64 (hp.read current + headerSize)) (2 ^ j) := by
  have hraw : u64 (hp.read current + headerSize) < 18446744073709551616 := Nat.mod_lt _ (by decide)
  have hup := alignUp_lt hj (u64 (hp.read current + headerSize))
  simp only [takeFree]
  generalize u64 (hp.read current + headerSize) = raw at hraw hup ⊢
  generalize alignUp raw (2 ^ j) = aligned at hup ⊢
  split_ifs with hpad
  · simp only [u64, headerSize]
    omega
  · simp only [u64] at hpad
    omega

/- Where the header of a block from the tail is put. -/
def tailPadding (b : Buffer) (hp : Heap) (alignment : ℕ) : ℕ :=
  headerPadding (b.base + hp.offset) alignment

theorem tailAddress (hoff : hp.offset ≤ allocatorSize) :
    u64 (b.base + hp.offset) = b.base + hp.offset := by
  have hfits := b.fits
  exact u64_of_lt (by omega)

theorem carve_full (hoff : hp.offset ≤ allocatorSize) {alignment total : ℕ}
    (hfull : allocatorSize < u64 (hp.offset + tailPadding b hp alignment + total)) :
    carve b hp alignment total = (0, hp) := by
  simp only [carve, tailAddress hoff]
  exact if_pos hfull

/- From the tail the memory is 16 bytes behind the header. -/
theorem carve_room (hoff : hp.offset ≤ allocatorSize) {alignment total : ℕ} (htotal : 16 ≤ total)
    (hroom : hp.offset + tailPadding b hp alignment + total ≤ allocatorSize) :
    carve b hp alignment total = (b.base + hp.offset + tailPadding b hp alignment + 16,
      ({hp with offset := hp.offset + tailPadding b hp alignment + total} : Heap).setSize
        (b.base + hp.offset + tailPadding b hp alignment) total) := by
  have hfits := b.fits
  simp only [carve, tailAddress hoff]
  unfold tailPadding at hroom ⊢
  generalize headerPadding (b.base + hp.offset) alignment = pad at hroom ⊢
  have hend : u64 (hp.offset + pad + total) = hp.offset + pad + total := u64_of_lt (by omega)
  have hheader : u64 (b.base + hp.offset + pad) = b.base + hp.offset + pad := u64_of_lt (by omega)
  have hptr : u64 (b.base + hp.offset + pad + headerSize) = b.base + hp.offset + pad + 16 :=
    u64_of_lt (by unfold headerSize; omega)
  rw [hend, if_neg (Nat.not_lt.mpr hroom), hheader, hptr]

end Serve

/-! ### Alignment along a run -/

/- Memory that is handed out for a power of two is a multiple of it. -/
def HonoursAlignment (b : Buffer) (fuel : ℕ) (st : HeapRun) : AllocOp → Prop
  | .alloc alignment size => ∀ k, alignment.toNat = 2 ^ k → ∀ p hp,
      alignedAlloc b fuel st.heap alignment.toNat size.toNat = some (p, hp) → p ≠ 0 →
        alignment.toNat ∣ p
  | _ => True

/- The search goes along the whole free list, `fuel` blocks at most, and no block has
the size. -/
def NoneFits (hp : Heap) (fuel totalSize : ℕ) : Prop :=
  ∃ l, Chain hp.nextFree hp.freeList l ∧ l.length < fuel ∧ ∀ h ∈ l, hp.size h < totalSize

/- A request that an aligned header is enough for, or that the tail does not serve. -/
def HeaderIsEnough (b : Buffer) (fuel : ℕ) (st : HeapRun) : AllocOp → Prop
  | .alloc alignment size => ∀ k, alignment.toNat = 2 ^ k → alignment.toNat ≤ 16 ∨
      ¬ NoneFits st.heap fuel (size.toNat + 16) ∨
      allocatorSize <
        st.heap.offset + tailPadding b st.heap alignment.toNat + (size.toNat + 16)
  | _ => True

section Requests
variable {b : Buffer} {fuel : ℕ} {st : HeapRun}

theorem findFit_none {hp : Heap} {totalSize : ℕ} {current : Link} :
    findFit hp totalSize fuel current = some none →
      ∃ l, Chain hp.nextFree (hp.read current) l ∧ l.length < fuel ∧
        ∀ h ∈ l, hp.size h < totalSize := by
  induction fuel generalizing current with
  | zero => exact fun h => absurd h.symm (Option.some_ne_none _)
  | succ fuel ih =>
    intro h
    rw [findFit] at h
    by_cases hnull : hp.read current = 0
    · exact ⟨[], hnull, Nat.succ_pos fuel, fun _ hin => absurd hin List.not_mem_nil⟩
    rw [if_neg hnull] at h
    by_cases hfit : totalSize ≤ hp.size (hp.read current)
    · rw [if_pos hfit] at h
      exact absurd (Option.some.inj h) (Option.some_ne_none current)
    rw [if_neg hfit] at h
    obtain ⟨l, hl, hlen, hsmall⟩ := ih h
    refine ⟨hp.read current :: l, ⟨rfl, hnull, hl⟩, Nat.succ_lt_succ hlen, fun a ha => ?_⟩
    obtain rfl | ha := List.mem_cons.mp ha
    · exact Nat.lt_of_not_le hfit
    · exact hsmall a ha

theorem noneFits_iff {hp : Heap} {totalSize : ℕ} :
    NoneFits hp fuel totalSize ↔ findFit hp totalSize fuel .head = some none := by
  refine ⟨?_, findFit_none⟩
  rintro ⟨l, hl, hlen, hsmall⟩
  have hl' : Chain hp.nextFree (hp.read .head) l := hl
  obtain ⟨pre, h, post, rfl, hfit, -, -, -⟩ | ⟨hnone, -⟩ := findFit_spec hp totalSize fuel hl' hlen
  · have hin : h ∈ pre ++ h :: post := List.mem_append_right _ (List.mem_cons_self ..)
    exact absurd (hsmall h hin) (Nat.not_lt.mpr hfit)
  · exact hnone

/- The exponent of an alignment that was asked for, at least that of 8. -/
theorem exponent_lt {alignment : UInt64} {k : ℕ} (hk : alignment.toNat = 2 ^ k) :
    max k 3 < 64 := by
  have hlt : 2 ^ k < 2 ^ 64 := hk ▸ alignment.toNat_lt
  have hk64 : k < 64 := (Nat.pow_lt_pow_iff_right (by decide)).mp hlt
  omega

/- The tail: aligned to 16 bytes and to no more. -/
theorem tail_aligned_iff {hp : Heap} (hoff : hp.offset ≤ allocatorSize) {j total : ℕ} (hj : j < 64)
    (hlow : 16 ≤ total) (htotal : total ≤ 65551) :
    ((carve b hp (2 ^ j) total).1 ≠ 0 → 2 ^ j ∣ (carve b hp (2 ^ j) total).1) ↔
      j ≤ 4 ∨ allocatorSize < hp.offset + tailPadding b hp (2 ^ j) + total := by
  have hpad : tailPadding b hp (2 ^ j) < 9223372036854775808 + 16 := headerPadding_lt hj _
  have hsize : allocatorSize = 524288 := rfl
  obtain hfull | hroom := Nat.lt_or_ge allocatorSize (hp.offset + tailPadding b hp (2 ^ j) + total)
  · have hend : u64 (hp.offset + tailPadding b hp (2 ^ j) + total) =
        hp.offset + tailPadding b hp (2 ^ j) + total := u64_of_lt (by omega)
    have hzero : carve b hp (2 ^ j) total = (0, hp) := carve_full hoff (hend.symm ▸ hfull)
    exact ⟨fun _ => Or.inr hfull, fun _ hne => absurd (congrArg Prod.fst hzero) hne⟩
  · have hheader : 2 ^ j ∣ b.base + hp.offset + tailPadding b hp (2 ^ j) :=
      dvd_add_headerPadding (Nat.le_of_lt hj) _
    have hsixteen : 2 ^ j ∣ 16 ↔ j ≤ 4 := Nat.pow_dvd_pow_iff_le_right (x := 2) (l := 4) (by decide)
    rw [carve_room hoff hlow hroom, Nat.dvd_add_right hheader, hsixteen]
    refine ⟨fun h => Or.inl (h (Nat.succ_ne_zero _)), fun h _ => ?_⟩
    exact h.resolve_right (Nat.not_lt.mpr hroom)

theorem honours_some {r : ℕ × Heap} {n : ℕ} :
    (∀ p hp, some r = some (p, hp) → p ≠ 0 → n ∣ p) ↔ (r.1 ≠ 0 → n ∣ r.1) :=
  ⟨fun h => h r.1 r.2 rfl, fun h _ _ he => by cases he; exact h⟩

theorem honours_iff (hoff : st.heap.offset ≤ allocatorSize) {op : AllocOp}
    (hop : ShortRequests st op) : HonoursAlignment b fuel st op ↔ HeaderIsEnough b fuel st op := by
  cases op with
  | free ptr => exact Iff.rfl
  | write value => exact Iff.rfl
  | alloc alignment size =>
    refine forall₂_congr fun k hk => ?_
    have hj := exponent_lt hk
    have hshort : size.toNat ≤ 65535 := hop
    have htotal : u64 (size.toNat + headerSize) = size.toNat + 16 :=
      u64_of_lt (by unfold headerSize; omega)
    have hfour : 2 ^ k ≤ 16 ↔ k ≤ 4 := Nat.pow_le_pow_iff_right (m := 4) (by decide)
    have hdvd : 2 ^ k ∣ 2 ^ max k 3 := pow_dvd_pow 2 (Nat.le_max_left k 3)
    rw [noneFits_iff, hk, hfour]
    cases hfind : findFit st.heap (size.toNat + 16) fuel .head with
    | none =>
      rw [alignedAlloc_pow, htotal, hfind]
      exact ⟨fun _ => Or.inr (Or.inl (Option.some_ne_none none).symm),
        fun _ p hp h => absurd h.symm (Option.some_ne_none _)⟩
    | some r =>
      cases r with
      | some current =>
        rw [alignedAlloc_take (htotal.symm ▸ hfind), honours_some,
          takeFree_fst (Nat.le_of_lt hj)]
        exact ⟨fun _ => Or.inr (Or.inl fun h => Option.some_ne_none _ (Option.some.inj h)),
          fun _ _ => hdvd.trans (dvd_alignUp (Nat.le_of_lt hj) _)⟩
      | none =>
        have htail := tail_aligned_iff (b := b) hoff hj (Nat.le_add_left 16 size.toNat) (by omega)
        rw [alignedAlloc_carve (htotal.symm ▸ hfind), honours_some, htotal]
        obtain hk4 | hk5 := Nat.lt_or_ge k 5
        · exact ⟨fun _ => Or.inl (Nat.le_of_lt_succ hk4),
            fun _ hne => hdvd.trans (htail.mpr (Or.inl (by omega)) hne)⟩
        · -- here nothing is clamped, and the two conditions are the same
          have hmax : max k 3 = k := Nat.max_eq_left (by omega)
          rw [hmax] at htail ⊢
          rw [htail]
          exact or_congr_right (Iff.symm (or_iff_right fun h => h rfl))

/-! ### The run -/

theorem takeFree_offset (hp : Heap) (alignment : ℕ) (current : Link) :
    (takeFree hp alignment current).2.offset = hp.offset := by
  have hwrite : ∀ v, (hp.write current v).offset = hp.offset := fun v => by
    cases current with
    | head => rfl
    | next header => rfl
  simp only [takeFree]
  split
  · exact hwrite _
  · exact hwrite _

theorem carve_offset {hp : Heap} (hoff : hp.offset ≤ allocatorSize) (alignment total : ℕ) :
    (carve b hp alignment total).2.offset ≤ allocatorSize := by
  simp only [carve]
  split
  · exact hoff
  · next hroom => exact Nat.le_of_not_lt hroom

theorem alignedAlloc_offset {hp : Heap} (hoff : hp.offset ≤ allocatorSize) {alignment size : ℕ}
    {r : ℕ × Heap} (h : alignedAlloc b fuel hp alignment size = some r) :
    r.2.offset ≤ allocatorSize := by
  simp only [alignedAlloc] at h
  generalize (if alignment < 8 then 8 else alignment) = n at h
  by_cases hpow : n &&& (n - 1) ≠ 0
  · rw [if_pos hpow] at h
    cases h
    exact hoff
  rw [if_neg hpow] at h
  cases hfind : findFit hp (u64 (size + headerSize)) fuel .head with
  | none =>
    rw [hfind] at h
    cases h
  | some found =>
    rw [hfind] at h
    cases found with
    | some current =>
      cases h
      exact (takeFree_offset hp n current).trans_le hoff
    | none =>
      cases h
      exact carve_offset hoff n _

/- The tail never begins behind the buffer. -/
def TailInside (st : HeapRun) : Prop := st.heap.offset ≤ allocatorSize

theorem allocStep_offset (hoff : TailInside st) {op : AllocOp} {st' : HeapRun}
    (h : allocStep b fuel st op = some st') : TailInside st' := by
  cases op with
  | alloc alignment size =>
    obtain ⟨r, hr, rfl⟩ := Option.map_eq_some_iff.mp h
    have hle := alignedAlloc_offset hoff hr
    split
    · exact hle
    · exact hle
  | free ptr =>
    have hfree : (alignedFree st.heap ptr).offset = st.heap.offset := by
      rw [alignedFree]
      split
      · rfl
      · rfl
    simp only [allocStep, heapStep] at h
    split at h
    · cases h
      exact hfree.trans_le hoff
    · cases h
      exact hfree.trans_le hoff
  | write value =>
    cases h
    exact hoff

end Requests

/-- From the initial heap on, in every sequence of requests with any alignment, of
valid frees and of writes to live blocks, the alignment is honoured all along if and
only if it is never asked for more than 16 bytes where the tail serves the request. -/
theorem alignment_honoured (b : Buffer) (fuel : ℕ) (mem : ℕ → ℕ) (ops : List AllocOp)
    (hok : Run.Guarded (allocStep b fuel) ShortRequests (heapInit mem) ops) :
    Run.Guarded (allocStep b fuel) (HonoursAlignment b fuel) (heapInit mem) ops ↔
      Run.Guarded (allocStep b fuel) (HeaderIsEnough b fuel) (heapInit mem) ops := by
  have hstep : ∀ st op, TailInside st → ShortRequests st op →
      (HonoursAlignment b fuel st op ↔ HeaderIsEnough b fuel st op) ∧
        ∀ st', allocStep b fuel st op = some st' → TailInside st' :=
    fun st op hoff hop => ⟨honours_iff hoff hop, fun st' h => allocStep_offset hoff h⟩
  have hinit : TailInside (heapInit mem) := Nat.zero_le _
  exact Run.guarded_congr hstep hinit hok

/- Tests for the conditions on a run. -/
def isShortRequest (st : HeapRun) : AllocOp → Bool
  | .alloc _ size => size.toNat ≤ 65535
  | .free ptr => ptr = 0 || st.live.any fun k => k.ptr = ptr
  | .write _ => true

def headerServes (fuel : ℕ) (st : HeapRun) : AllocOp → Bool
  | .alloc alignment size =>
    alignment.toNat ≤ 16 || (findFit st.heap (size.toNat + 16) fuel .head).join.isSome
  | _ => true

theorem shortRequests_of_test (st : HeapRun) (op : AllocOp) (h : isShortRequest st op = true) :
    ShortRequests st op := by
  cases op with
  | alloc alignment size =>
    have hsize : size.toNat ≤ 65535 := of_decide_eq_true h
    exact hsize
  | free ptr =>
    have hlive : ptr = 0 ∨ ∃ k ∈ st.live, k.ptr = ptr := by simpa [isShortRequest] using h
    exact hlive
  | write value => trivial

theorem headerIsEnough_of_test (b : Buffer) {fuel : ℕ} (st : HeapRun) (op : AllocOp)
    (h : headerServes fuel st op = true) : HeaderIsEnough b fuel st op := by
  cases op with
  | alloc alignment size =>
    intro k _
    rw [headerServes, Bool.or_eq_true, decide_eq_true_iff] at h
    refine h.imp id fun hfound => .inl fun hnone => ?_
    rw [noneFits_iff.mp hnone] at hfound
    exact absurd hfound (by decide)
  | free ptr => trivial
  | write value => trivial

/- Two blocks; the first is freed, and its memory serves a request with alignment 32. -/
def reusedBlock : List AllocOp :=
  [.alloc 16 80, .alloc 16 32, .write fun a => a % 256, .free 4144, .alloc 32 24, .alloc 8 4]

theorem alignment_honoured_reused :
    Run.Guarded (allocStep lowBuffer 16385) (HonoursAlignment lowBuffer 16385)
      (heapInit fun _ => 0) reusedBlock ∧
    (Run.exec (allocStep lowBuffer 16385) (heapInit fun _ => 0) reusedBlock).map
      (fun st => st.live.map Block.ptr) = some [4312, 4160, 4256] := by
  refine ⟨(alignment_honoured lowBuffer 16385 (fun _ => 0) reusedBlock
    (Run.guarded_of_test shortRequests_of_test ?_)).mpr
      (Run.guarded_of_test (headerIsEnough_of_test lowBuffer) ?_), ?_⟩
  all_goals decide +kernel

/- The first request, with alignment 32. -/
theorem tail_misaligned :
    ¬ ∀ ops : List AllocOp, Run.Guarded (allocStep lowBuffer 16385) ShortRequests
        (heapInit fun _ => 0) ops →
      Run.Guarded (allocStep lowBuffer 16385) (HonoursAlignment lowBuffer 16385)
        (heapInit fun _ => 0) ops := by
  intro h
  have hrun := h [.alloc 32 0] ⟨(by decide : (0 : UInt64).toNat ≤ 65535), fun _ _ => trivial⟩
  have halloc : (alignedAlloc lowBuffer 16385 (heapInit fun _ => 0).heap 32 0).map Prod.fst =
      some 4144 := by decide
  obtain ⟨⟨p, hp⟩, hr, hp'⟩ := Option.map_eq_some_iff.mp halloc
  cases hp'
  exact absurd (hrun.1 5 rfl 4144 hp hr (by decide)) (by decide)

end CasseOS.Mem
