import CasseOS.Mem.HeapSafety
import Mathlib.Algebra.BigOperators.Group.Finset.Basic
import Mathlib.Algebra.Order.BigOperators.Group.Finset

/-! # Growth of the heap

`aligned_alloc` takes the first free block that is large enough, and never
splits one. A block is only carved from the tail of the buffer when no free
block would do, so all blocks carved for requests of one size are live together
when the last of them is carved. -/

namespace CasseOS.Mem

/-- The block a request carves from the tail: `allocator_offset` moves on
(`mem.c:103-125`). Its header, and the size recorded there. -/
def tailBlock (b : Buffer) (fuel : ℕ) (hp : Heap) (size : ℕ) : Option (ℕ × ℕ) :=
  (alignedAlloc b fuel hp 16 size).bind fun r =>
    if r.2.offset = hp.offset then none
    else some (r.1 - headerSize, r.2.size (r.1 - headerSize))

def carvedBy (b : Buffer) (fuel : ℕ) (hp : Heap) : HeapOp → List (ℕ × ℕ)
  | .alloc size => (tailBlock b fuel hp size).toList
  | .free _ => []
  | .write _ => []

/- A run with the blocks that were ever carved. -/
structure TailRun where
  run : HeapRun
  carved : List (ℕ × ℕ)

def tailStep (b : Buffer) (fuel : ℕ) (s : TailRun) (op : HeapOp) : Option TailRun :=
  (heapStep b fuel s.run op).map fun st => ⟨st, carvedBy b fuel s.run.heap op ++ s.carved⟩

def tailInit (mem : ℕ → ℕ) : TailRun := ⟨heapInit mem, []⟩

def TailOk (s : TailRun) (op : HeapOp) : Prop := HeapOk s.run op

/- If a request of `size` bytes is served from the tail now, the carved blocks
that would hold it are all live. -/
def LargeBlocksLive (b : Buffer) (fuel : ℕ) (s : TailRun) : Prop :=
  ∀ size ≤ 65535, (tailBlock b fuel s.run.heap size).isSome →
    ∀ k ∈ s.carved, size + headerSize ≤ s.run.heap.size k.1 → ∃ l ∈ s.run.live, l.header = k.1

/-! ### One operation -/

section Step
variable {b : Buffer} {fuel : ℕ} {s s' : TailRun}

/- Where a request is served from. -/
theorem tailBlock_cases (h : HeapInv b s.carved s.run) (hfuel : 16384 < fuel) {size : ℕ}
    (hsize : size ≤ 65535) :
    ∃ st', heapStep b fuel s.run (.alloc size) = some st' ∧
      ((tailBlock b fuel s.run.heap size = none ∧ HeapInv b s.carved st') ∨
        (∃ a, tailBlock b fuel s.run.heap size = some (a, size + 16) ∧
          st'.live = ⟨a, size⟩ :: s.run.live ∧ (∀ c ∈ s.run.freed, s.run.heap.size c < size + 16) ∧
          HeapInv b ((a, size + 16) :: s.carved) st')) := by
  obtain ⟨r, st', halloc, hstep, hcases⟩ := alloc_step h hfuel hsize
  refine ⟨st', hstep, ?_⟩
  obtain ⟨hoff, h'⟩ | ⟨a, hptr, hoff, hheap, hlive, hsmall, h'⟩ := hcases
  · refine Or.inl ⟨?_, h'⟩
    rw [tailBlock, halloc, Option.bind_some, if_pos hoff]
  · refine Or.inr ⟨a, ?_, hlive, hsmall, h'⟩
    have hrecorded : r.2.size a = size + 16 := by
      rw [← hheap]
      exact h'.carved.sizes _ (List.mem_cons_self ..)
    have hsub : a + 16 - headerSize = a := Nat.add_sub_cancel a 16
    rw [tailBlock, halloc, Option.bind_some, if_neg hoff, hptr, hsub, hrecorded]

/- A carved block that is not on the free list is live. -/
theorem live_of_large (h : HeapInv b s.carved s.run) {n : ℕ}
    (hsmall : ∀ c ∈ s.run.freed, s.run.heap.size c < n) {k : ℕ × ℕ} (hk : k ∈ s.carved)
    (hn : n ≤ s.run.heap.size k.1) : k.1 ∈ s.run.live.map Block.header := by
  have hmem := h.parts.symm.subset (List.mem_map_of_mem (f := Prod.fst) hk)
  obtain hlive | hfreed := List.mem_append.mp hmem
  · exact hlive
  · exact absurd (hsmall _ hfreed) (Nat.not_lt_of_le hn)

theorem HeapInv.largeBlocksLive (h : HeapInv b s.carved s.run) (hfuel : 16384 < fuel) :
    LargeBlocksLive b fuel s := by
  intro size hsize htail k hk hlarge
  obtain ⟨st', -, ⟨hnone, -⟩ | ⟨a, -, -, hsmall, -⟩⟩ := tailBlock_cases h hfuel hsize
  · rw [hnone] at htail
    exact absurd htail (by simp)
  · exact List.mem_map.mp (live_of_large h hsmall hk hlarge)

theorem tailStep_inv (h : HeapInv b s.carved s.run) (hfuel : 16384 < fuel) {op : HeapOp}
    (hok : TailOk s op) :
    ∃ s', tailStep b fuel s op = some s' ∧ HeapInv b s'.carved s'.run := by
  cases op with
  | alloc size =>
    obtain ⟨st', hstep, ⟨hnone, h'⟩ | ⟨a, hsome, -, -, h'⟩⟩ := tailBlock_cases h hfuel hok
    · refine ⟨⟨st', s.carved⟩, ?_, h'⟩
      rw [tailStep, hstep, carvedBy, hnone]
      rfl
    · refine ⟨⟨st', (a, size + 16) :: s.carved⟩, ?_, h'⟩
      rw [tailStep, hstep, carvedBy, hsome]
      rfl
  | free ptr =>
    obtain ⟨st', hstep, h'⟩ := free_step h hok
    exact ⟨⟨st', s.carved⟩, by rw [tailStep, hstep]; rfl, h'⟩
  | write value => exact ⟨_, rfl, write_inv h value⟩

end Step

/-! ### Counting -/

/- At most `n` blocks of each recorded size were carved. -/
structure FewOfEach (sizes : Finset ℕ) (n : ℕ) (s : TailRun) : Prop where
  few : ∀ v, (s.carved.map Prod.snd).count v ≤ n
  sizes : ∀ v ∈ s.carved.map Prod.snd, v ∈ sizes.image (· + headerSize)

theorem FewOfEach.length_le {sizes : Finset ℕ} {n : ℕ} {s : TailRun} (h : FewOfEach sizes n s) :
    s.carved.length ≤ sizes.card * n := by
  calc s.carved.length
      = ∑ v ∈ sizes.image (· + headerSize), (s.carved.map Prod.snd).count v := by
        have hsum := Multiset.sum_count_eq_card (m := (s.carved.map Prod.snd : Multiset ℕ)) h.sizes
        simpa using hsum.symm
    _ ≤ (sizes.image (· + headerSize)).card * n := Finset.sum_le_card_nsmul _ _ _ fun v _ => h.few v
    _ ≤ sizes.card * n := Nat.mul_le_mul_right n Finset.card_image_le

/- The carved blocks of the size that is carved now, with the new one, are live
together. -/
theorem same_size_live {b : Buffer} {s : TailRun} {live : List Block} {a n : ℕ}
    (h : HeapInv b s.carved s.run) (hsmall : ∀ c ∈ s.run.freed, s.run.heap.size c < n)
    (hlive : live.map Block.header = a :: s.run.live.map Block.header) :
    (s.carved.map Prod.snd).count n + 1 ≤ live.length := by
  have hcount : (s.carved.map Prod.snd).count n =
      ((s.carved.filter fun k => k.2 = n).map Prod.fst).length := by
    rw [List.count_eq_countP, List.countP_map, List.countP_eq_length_filter, List.length_map]
    rfl
  have hnodup : ((s.carved.filter fun k => k.2 = n).map Prod.fst).Nodup :=
    h.carved.headers_nodup.sublist (List.filter_sublist.map Prod.fst)
  have hsubset : (s.carved.filter fun k => k.2 = n).map Prod.fst ⊆ s.run.live.map Block.header := by
    intro c hc
    obtain ⟨k, hk, rfl⟩ := List.mem_map.mp hc
    obtain ⟨hmem, hsize⟩ := List.mem_filter.mp hk
    refine live_of_large h hsmall hmem ?_
    rw [h.carved.sizes k hmem]
    exact (of_decide_eq_true hsize).ge
  have hle := (hnodup.subperm hsubset).length_le
  have hlength := congrArg List.length hlive
  rw [List.length_map, List.length_cons] at hlength
  omega

theorem FewOfEach.step {b : Buffer} {fuel n : ℕ} {sizes : Finset ℕ} {s s' : TailRun} {op : HeapOp}
    (hfew : FewOfEach sizes n s) (h : HeapInv b s.carved s.run) (hfuel : 16384 < fuel)
    (hok : TailOk s op) (hstep : tailStep b fuel s op = some s') (hlive : s'.run.live.length ≤ n)
    (hsizes : ∀ size, op = .alloc size → size ∈ sizes) : FewOfEach sizes n s' := by
  have hsame : carvedBy b fuel s.run.heap op = [] → s'.carved = s.carved := by
    intro hnone
    obtain ⟨st, -, rfl⟩ := Option.map_eq_some_iff.mp hstep
    rw [hnone]
    rfl
  cases op with
  | free ptr => exact ⟨hsame rfl ▸ hfew.few, hsame rfl ▸ hfew.sizes⟩
  | write value => exact ⟨hsame rfl ▸ hfew.few, hsame rfl ▸ hfew.sizes⟩
  | alloc size =>
    obtain ⟨st', hheap, ⟨hnone, -⟩ | ⟨a, hsome, hlive', hsmall, -⟩⟩ := tailBlock_cases h hfuel hok
    · have hnil : carvedBy b fuel s.run.heap (.alloc size) = [] := by rw [carvedBy, hnone]; rfl
      exact ⟨hsame hnil ▸ hfew.few, hsame hnil ▸ hfew.sizes⟩
    · rw [tailStep, hheap, carvedBy, hsome] at hstep
      obtain rfl := Option.some.inj hstep
      have hheaders : st'.live.map Block.header = a :: s.run.live.map Block.header := by
        rw [hlive']
        rfl
      have hroom := same_size_live h hsmall hheaders
      refine ⟨?_, ?_⟩
      · intro v
        show ((size + 16) :: s.carved.map Prod.snd).count v ≤ n
        by_cases hv : size + 16 = v
        · subst hv
          rw [List.count_cons_self]
          exact hroom.trans hlive
        · rw [List.count_cons_of_ne hv]
          exact hfew.few v
      · intro v hv
        obtain rfl | hv := List.mem_cons.mp hv
        · exact Finset.mem_image_of_mem _ (hsizes size rfl)
        · exact hfew.sizes v hv

/-! ### Runs -/

theorem fewOfEach_run {b : Buffer} {fuel n : ℕ} {sizes : Finset ℕ} (hfuel : 16384 < fuel)
    {ops : List HeapOp} {s : TailRun} (h : HeapInv b s.carved s.run) (hfew : FewOfEach sizes n s)
    (hok : Run.Guarded (tailStep b fuel) TailOk s ops)
    (hsizes : ∀ size, .alloc size ∈ ops → size ∈ sizes)
    (hlive : Run.Throughout (tailStep b fuel) (fun s => s.run.live.length ≤ n) s ops) :
    Run.Throughout (tailStep b fuel) (FewOfEach sizes n) s ops := by
  induction ops generalizing s with
  | nil => exact hfew
  | cons op ops ih =>
    obtain ⟨hop, hrest⟩ := hok
    obtain ⟨-, s', hstep, hlive'⟩ := hlive
    obtain ⟨s'', hstep', h'⟩ := tailStep_inv h hfuel hop
    obtain rfl := Option.some.inj (hstep.symm.trans hstep')
    have hnow : s'.run.live.length ≤ n := by
      cases ops with
      | nil => exact hlive'
      | cons _ _ => exact hlive'.1
    have hfew' := hfew.step h hfuel hop hstep hnow
      fun size hsize => hsizes size (hsize ▸ List.mem_cons_self ..)
    refine ⟨hfew, s', hstep, ih h' hfew' (hrest s' hstep) ?_ hlive'⟩
    exact fun size hsize => hsizes size (List.mem_cons_of_mem op hsize)

/-- Along every sequence of 16-byte aligned requests of at most 65535 bytes and
valid frees: when a request is served from the tail of the buffer, every block
carved before that would hold it is live; and if the requests are of `k`
different sizes and at most `n` blocks are live at a time, at most `k * n`
blocks are ever carved. -/
theorem heap_growth_bounded (b : Buffer) (fuel : ℕ) (hfuel : 16384 < fuel) (mem : ℕ → ℕ)
    (ops : List HeapOp) (hok : Run.Guarded (tailStep b fuel) TailOk (tailInit mem) ops) :
    Run.Throughout (tailStep b fuel) (LargeBlocksLive b fuel) (tailInit mem) ops ∧
      ∀ (sizes : Finset ℕ) (n : ℕ), (∀ size, .alloc size ∈ ops → size ∈ sizes) →
        Run.Throughout (tailStep b fuel) (fun s => s.run.live.length ≤ n) (tailInit mem) ops →
        Run.Throughout (tailStep b fuel) (fun s => s.carved.length ≤ sizes.card * n)
          (tailInit mem) ops := by
  have hinit : HeapInv b (tailInit mem).carved (tailInit mem).run := heapInit_inv b mem
  refine ⟨?_, ?_⟩
  · have hstep : ∀ s op, HeapInv b s.carved s.run → TailOk s op →
        ∃ s', tailStep b fuel s op = some s' ∧ HeapInv b s'.carved s'.run :=
      fun s op h hop => tailStep_inv h hfuel hop
    exact (Run.throughout_of_invariant hstep hinit hok).mono fun s h => h.largeBlocksLive hfuel
  · intro sizes n hsizes hlive
    have hfew : FewOfEach sizes n (tailInit mem) :=
      ⟨fun v => Nat.zero_le n, fun v hv => absurd hv List.not_mem_nil⟩
    exact (fewOfEach_run hfuel hinit hfew hok hsizes hlive).mono fun s h => h.length_le

/- A block is freed and handed out again for a smaller request. -/
theorem heap_growth_bounded_reuse :
    Run.Throughout (tailStep lowBuffer 16385) (fun s => s.carved.length ≤ 2 * 1)
      (tailInit fun _ => 0) [.alloc 32, .free 4144, .alloc 8] := by
  have hlive : (tailStep lowBuffer 16385 (tailInit fun _ => 0) (.alloc 32)).map
      (fun s => s.run.live) = some [⟨4128, 32⟩] := by decide
  have hok : Run.Guarded (tailStep lowBuffer 16385) TailOk (tailInit fun _ => 0)
      [.alloc 32, .free 4144, .alloc 8] := by
    refine ⟨(by decide : 32 ≤ 65535), fun s hs => ⟨Or.inr ⟨⟨4128, 32⟩, ?_, rfl⟩,
      fun _ _ => ⟨(by decide : 8 ≤ 65535), fun _ _ => trivial⟩⟩⟩
    rw [hs] at hlive
    have hmem : s.run.live = [⟨4128, 32⟩] := Option.some.inj hlive
    rw [hmem]
    exact List.mem_cons_self ..
  refine (heap_growth_bounded lowBuffer 16385 (by decide) (fun _ => 0) _ hok).2 {32, 8} 1 (by simp) ?_
  refine ⟨by decide, _, rfl, by decide, _, rfl, by decide, _, rfl, ?_⟩
  exact (by decide : 1 ≤ 1)

end CasseOS.Mem
