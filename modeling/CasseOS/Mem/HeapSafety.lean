import CasseOS.Lib.Chain
import CasseOS.Lib.Run
import CasseOS.Mem.Allocator
import Mathlib.Data.List.Pairwise
import Mathlib.Data.List.Perm.Basic

/-! # Safety of the heap

The kernel allocates with alignment 16. Blocks are carved one behind the other
and never split, so at any time the carved blocks lie apart in the buffer, and
each of them is either live or on the free list, once. -/

namespace CasseOS.Mem
open CInt

/-! ### Address arithmetic -/

theorem alignUp_of_aligned {a : ℕ} (h16 : a % 16 = 0) (hlt : a + 15 < 18446744073709551616) :
    alignUp a 16 = a := by
  have hm := and_mask (w := 64) (x := a + 15) (k := 4) (by decide) hlt
  rw [alignUp, u64_of_lt hlt]
  refine hm.trans ?_
  show (a + 15) / 16 * 16 = a
  omega

theorem headerPadding_sixteen (a : ℕ) :
    16 ≤ headerPadding a 16 ∧ headerPadding a 16 ≤ 31 ∧ (a + headerPadding a 16) % 16 = 0 := by
  unfold headerPadding headerSize u64
  dsimp only
  split <;> omega

/-! ### Runs of the allocator -/

/- A block handed out for `size` bytes. -/
structure Block where
  header : ℕ
  size : ℕ
  deriving DecidableEq

def Block.ptr (k : Block) : ℕ := k.header + headerSize

/- The end of the payload. -/
def Block.stop (k : Block) : ℕ := k.ptr + k.size

/- The heap with the blocks that are live and the headers of those that were
freed and not handed out again. -/
structure HeapRun where
  heap : Heap
  live : List Block
  freed : List ℕ

inductive HeapOp where
  | alloc (size : ℕ)
  | free (ptr : ℕ)
  /-- The owners of the live blocks write them. -/
  | write (value : ℕ → ℕ)

def heapStep (b : Buffer) (fuel : ℕ) (st : HeapRun) : HeapOp → Option HeapRun
  | .alloc size =>
    (alignedAlloc b fuel st.heap 16 size).map fun r =>
      if r.1 = 0 then {st with heap := r.2}
      else ⟨r.2, ⟨r.1 - headerSize, size⟩ :: st.live, st.freed.erase (r.1 - headerSize)⟩
  | .free ptr =>
    if ptr = 0 then some {st with heap := alignedFree st.heap ptr}
    else some ⟨alignedFree st.heap ptr, st.live.filter fun k => k.ptr ≠ ptr,
      (ptr - headerSize) :: st.freed⟩
  | .write value =>
    some {st with heap := {st.heap with
      mem := fun a => if ∃ k ∈ st.live, k.ptr ≤ a ∧ a < k.stop then value a else st.heap.mem a}}

/- Requests of at most 65535 bytes; only `NULL` or a live pointer is freed. -/
def HeapOk (st : HeapRun) : HeapOp → Prop
  | .alloc size => size ≤ 65535
  | .free ptr => ptr = 0 ∨ ∃ k ∈ st.live, k.ptr = ptr
  | .write _ => True

def heapInit (mem : ℕ → ℕ) : HeapRun := ⟨⟨mem, 0, 0⟩, [], []⟩

/- Ranges `[a, a')` and `[b, b')` that do not meet. -/
def Apart (a a' b b' : ℕ) : Prop := a' ≤ b ∨ b' ≤ a

structure Safe (b : Buffer) (fuel : ℕ) (st : HeapRun) : Prop where
  aligned : ∀ k ∈ st.live, k.ptr % 16 = 0
  inside : ∀ k ∈ st.live, b.base ≤ k.header ∧ k.stop ≤ b.base + allocatorSize
  liveApart : st.live.Pairwise fun k k' => Apart k.header k.stop k'.header k'.stop
  freeApart : ∀ k ∈ st.live, ∀ h ∈ st.freed, Apart k.header k.stop h (h + st.heap.size h)
  freeList : Chain st.heap.nextFree st.heap.freeList st.freed
  once : st.freed.Nodup
  search : ∀ totalSize, ∃ r, findFit st.heap totalSize fuel .head = some r

/-! ### The invariant -/

/- The blocks carved from the buffer so far, as headers and recorded sizes. -/
structure Carved (b : Buffer) (hp : Heap) (blocks : List (ℕ × ℕ)) : Prop where
  offset_le : hp.offset ≤ allocatorSize
  count : 32 * blocks.length ≤ hp.offset
  sizes : ∀ k ∈ blocks, hp.size k.1 = k.2
  aligned : ∀ k ∈ blocks, k.1 % 16 = 0
  bounds : ∀ k ∈ blocks, b.base + 16 ≤ k.1 ∧ 16 ≤ k.2 ∧ k.1 + k.2 ≤ b.base + hp.offset
  apart : blocks.Pairwise fun k k' => Apart k.1 (k.1 + k.2) k'.1 (k'.1 + k'.2)

structure HeapInv (b : Buffer) (blocks : List (ℕ × ℕ)) (st : HeapRun) : Prop where
  carved : Carved b st.heap blocks
  chain : Chain st.heap.nextFree st.heap.freeList st.freed
  parts : (st.live.map Block.header ++ st.freed).Perm (blocks.map Prod.fst)
  room : ∀ k ∈ st.live, k.size + 16 ≤ st.heap.size k.header

section Facts
variable {b : Buffer} {blocks : List (ℕ × ℕ)} {st : HeapRun}

theorem Carved.headers_nodup {hp : Heap} (h : Carved b hp blocks) :
    (blocks.map Prod.fst).Nodup := by
  refine List.pairwise_map.mpr (h.apart.imp_of_mem ?_)
  intro k k' hk hk' hap heq
  have h1 := (h.bounds k hk).2.1
  have h2 := (h.bounds k' hk').2.1
  unfold Apart at hap
  omega

theorem Carved.apart_of_ne {hp : Heap} (h : Carved b hp blocks) {k k' : ℕ × ℕ} (hk : k ∈ blocks)
    (hk' : k' ∈ blocks) (hne : k.1 ≠ k'.1) : Apart k.1 (k.1 + k.2) k'.1 (k'.1 + k'.2) := by
  have : Std.Symm fun k k' : ℕ × ℕ => Apart k.1 (k.1 + k.2) k'.1 (k'.1 + k'.2) :=
    ⟨fun _ _ h => h.symm⟩
  exact h.apart.forall hk hk' fun he => hne (congrArg Prod.fst he)

theorem HeapInv.live_mem (h : HeapInv b blocks st) {k : Block} (hk : k ∈ st.live) :
    (k.header, st.heap.size k.header) ∈ blocks := by
  have hmem : k.header ∈ blocks.map Prod.fst :=
    h.parts.subset (List.mem_append_left _ (List.mem_map_of_mem hk))
  obtain ⟨c, hc, hh⟩ := List.mem_map.mp hmem
  rw [← hh, h.carved.sizes c hc]
  exact hc

theorem HeapInv.freed_mem (h : HeapInv b blocks st) {a : ℕ} (ha : a ∈ st.freed) :
    (a, st.heap.size a) ∈ blocks := by
  have hmem : a ∈ blocks.map Prod.fst := h.parts.subset (List.mem_append_right _ ha)
  obtain ⟨c, hc, rfl⟩ := List.mem_map.mp hmem
  rw [h.carved.sizes c hc]
  exact hc

theorem HeapInv.nodup (h : HeapInv b blocks st) :
    (st.live.map Block.header ++ st.freed).Nodup :=
  h.parts.nodup_iff.mpr h.carved.headers_nodup

theorem HeapInv.freed_length (h : HeapInv b blocks st) : st.freed.length ≤ 16384 := by
  have hlen := h.parts.length_eq
  rw [List.length_append, List.length_map, List.length_map] at hlen
  have hc := h.carved.count
  have ho := h.carved.offset_le
  unfold allocatorSize at ho
  omega

end Facts

/-! ### The search -/

/- The link behind the blocks `l`. -/
def linkTo (current : Link) : List ℕ → Link
  | [] => current
  | a :: l => linkTo (.next a) l

theorem findFit_spec (hp : Heap) (totalSize fuel : ℕ) {current : Link} {l : List ℕ}
    (hl : Chain hp.nextFree (hp.read current) l) (hfuel : l.length < fuel) :
    (∃ pre h post, l = pre ++ h :: post ∧ totalSize ≤ hp.size h ∧
      findFit hp totalSize fuel current = some (some (linkTo current pre)) ∧
      hp.read (linkTo current pre) = h ∧ ∀ c ∈ pre, hp.size c < totalSize) ∨
    (findFit hp totalSize fuel current = some none ∧ ∀ h ∈ l, hp.size h < totalSize) := by
  induction l generalizing current fuel with
  | nil =>
    obtain ⟨n, rfl⟩ := Nat.exists_eq_succ_of_ne_zero (Nat.ne_of_gt hfuel)
    have hnull : hp.read current = 0 := hl
    refine Or.inr ⟨?_, fun _ hin => absurd hin List.not_mem_nil⟩
    rw [findFit, if_pos hnull]
  | cons a l ih =>
    obtain ⟨n, rfl⟩ := Nat.exists_eq_succ_of_ne_zero (Nat.ne_of_gt (Nat.zero_lt_of_lt hfuel))
    obtain ⟨hread, ha, htail⟩ := hl
    rw [List.length_cons] at hfuel
    by_cases hfit : totalSize ≤ hp.size a
    · refine Or.inl ⟨[], a, l, rfl, hfit, ?_, hread, fun _ hc => absurd hc List.not_mem_nil⟩
      rw [findFit, hread, if_neg ha, if_pos hfit]
      rfl
    · have hstep : findFit hp totalSize (n + 1) current = findFit hp totalSize n (.next a) := by
        rw [findFit, hread, if_neg ha, if_neg hfit]
      rw [hstep]
      have hnext : Chain hp.nextFree (hp.read (.next a)) l := htail
      rcases ih n hnext (by omega) with
        ⟨pre, h, post, rfl, hsize, hfind, hlink, hpre⟩ | ⟨hnone, hsmall⟩
      · refine Or.inl ⟨a :: pre, h, post, rfl, hsize, hfind, hlink, fun c hc => ?_⟩
        rcases List.mem_cons.mp hc with rfl | hc
        · exact Nat.lt_of_not_le hfit
        · exact hpre c hc
      · refine Or.inr ⟨hnone, fun h hin => ?_⟩
        rcases List.mem_cons.mp hin with rfl | hin
        · exact Nat.lt_of_not_le hfit
        · exact hsmall h hin

/-! ### The operations keep the invariant -/

section Operations
variable {b : Buffer} {blocks : List (ℕ × ℕ)} {st : HeapRun}

theorem HeapInv.header_bounds (h : HeapInv b blocks st) {a : ℕ} (ha : a ∈ blocks.map Prod.fst) :
    a % 16 = 0 ∧ b.base + 16 ≤ a ∧ a + 16 ≤ b.base + allocatorSize := by
  obtain ⟨k, hk, rfl⟩ := List.mem_map.mp ha
  have h1 := h.carved.bounds k hk
  have h2 := h.carved.offset_le
  exact ⟨h.carved.aligned k hk, h1.1, by omega⟩

/- Writing the link of a header changes no recorded size. -/
theorem Carved.setNextFree {hp : Heap} (h : Carved b hp blocks) {a : ℕ} (ha : a % 16 = 0) (v : ℕ) :
    Carved b (hp.setNextFree a v) blocks := by
  refine ⟨h.offset_le, h.count, ?_, h.aligned, h.bounds, h.apart⟩
  intro k hk
  have h16 := h.aligned k hk
  have hne : k.1 ≠ a + 8 := by omega
  rw [← h.sizes k hk]
  exact Function.update_of_ne hne _ _

theorem size_setNextFree (hp : Heap) {a c : ℕ} (ha : a % 16 = 0) (hc : c % 16 = 0) (v : ℕ) :
    (hp.setNextFree a v).size c = hp.size c :=
  Function.update_of_ne (by omega) _ _

theorem nextFree_setNextFree (hp : Heap) (a c v : ℕ) :
    (hp.setNextFree a v).nextFree c = if c = a then v else hp.nextFree c := by
  simp only [Heap.nextFree, Heap.setNextFree, Function.update_apply, Nat.add_right_cancel_iff]

/- The block moves from the live ones to the free ones. -/
theorem freed_perm {live : List Block} {freed : List ℕ} (hnodup : (live.map Block.header).Nodup)
    {k : Block} (hk : k ∈ live) :
    ((live.filter fun k' => k'.ptr ≠ k.ptr).map Block.header ++ k.header :: freed).Perm
      (live.map Block.header ++ freed) := by
  have hfilter : (live.filter fun k' => k'.ptr ≠ k.ptr).map Block.header =
      (live.map Block.header).erase k.header := by
    rw [hnodup.erase_eq_filter, List.filter_map]
    refine congrArg _ (List.filter_congr fun k' _ => ?_)
    by_cases hx : k'.header = k.header <;> simp [Block.ptr, hx]
  rw [hfilter]
  have hperm := List.perm_cons_erase (List.mem_map_of_mem (f := Block.header) hk)
  exact List.perm_middle.trans (hperm.symm.append_right freed)

/- A header of a live block is not free. -/
theorem live_not_freed {live : List Block} {freed : List ℕ}
    (hnodup : (live.map Block.header ++ freed).Nodup) {k : Block} (hk : k ∈ live) :
    k.header ∉ freed := by
  intro hin
  exact (List.nodup_append.mp hnodup).2.2 k.header (List.mem_map_of_mem hk) k.header hin rfl

theorem alignedFree_block (hp : Heap) {k : Block} (hlt : k.header + headerSize < 2 ^ 64) :
    alignedFree hp k.ptr = {hp.setNextFree k.header hp.freeList with freeList := k.header} := by
  have hheader : u64 (k.ptr + 18446744073709551616 - headerSize) = k.header := by
    unfold u64 Block.ptr headerSize
    unfold headerSize at hlt
    omega
  have hptr : ¬ k.ptr = 0 := Nat.succ_ne_zero _
  rw [alignedFree, if_neg hptr, hheader]

/- The link of the freed header leads to what was first before. -/
theorem chain_setNextFree {hp : Heap} {a : ℕ} {freed : List ℕ}
    (h : Chain hp.nextFree hp.freeList freed) (ha : a ≠ 0) (hfresh : a ∉ freed) :
    Chain (hp.setNextFree a hp.freeList).nextFree a (a :: freed) := by
  refine h.push ha ?_ fun c hc => ?_
  · rw [nextFree_setNextFree, if_pos rfl]
  · have hne : c ≠ a := fun he => hfresh (he ▸ hc)
    rw [nextFree_setNextFree, if_neg hne]

/- Freeing a live block. -/
theorem free_inv (h : HeapInv b blocks st) {k : Block} (hk : k ∈ st.live) :
    HeapInv b blocks ⟨alignedFree st.heap k.ptr, st.live.filter fun k' => k'.ptr ≠ k.ptr,
      k.header :: st.freed⟩ := by
  have hmem : k.header ∈ blocks.map Prod.fst :=
    h.parts.subset (List.mem_append_left _ (List.mem_map_of_mem hk))
  obtain ⟨h16, hlo, hhi⟩ := h.header_bounds hmem
  have hfits := b.fits
  have hlt : k.header + headerSize < 2 ^ 64 := by
    unfold headerSize
    omega
  have hnodup := List.nodup_append.mp h.nodup
  rw [alignedFree_block st.heap hlt]
  refine ⟨?_, ?_, ?_, ?_⟩
  · have hc := h.carved.setNextFree h16 st.heap.freeList
    exact ⟨hc.offset_le, hc.count, hc.sizes, hc.aligned, hc.bounds, hc.apart⟩
  · exact chain_setNextFree h.chain (by omega) (live_not_freed h.nodup hk)
  · exact (freed_perm hnodup.1 hk).trans h.parts
  · intro k' hk'
    have hin := (List.mem_filter.mp hk').1
    have hb := h.header_bounds (h.parts.subset (List.mem_append_left _ (List.mem_map_of_mem hin)))
    have hsize := size_setNextFree st.heap h16 hb.1 st.heap.freeList
    exact (h.room k' hin).trans_eq hsize.symm

theorem read_write_size (hp : Heap) (link : Link) (v : ℕ) (c : ℕ)
    (hlink : ∀ a, link = .next a → a % 16 = 0) (hc : c % 16 = 0) :
    (hp.write link v).size c = hp.size c := by
  cases link with
  | head => rfl
  | next a => exact size_setNextFree hp (hlink a rfl) hc v

theorem Carved.write {hp : Heap} (h : Carved b hp blocks) {link : Link}
    (hlink : ∀ a, link = .next a → a % 16 = 0) (v : ℕ) : Carved b (hp.write link v) blocks := by
  cases link with
  | head => exact ⟨h.offset_le, h.count, h.sizes, h.aligned, h.bounds, h.apart⟩
  | next a => exact h.setNextFree (hlink a rfl) v

theorem linkTo_concat (current : Link) (l : List ℕ) (a : ℕ) :
    linkTo current (l ++ [a]) = .next a := by
  induction l generalizing current with
  | nil => rfl
  | cons c l ih => exact ih _

/- Unlinking the block the search has found. -/
theorem unlink_chain {hp : Heap} {pre post : List ℕ} {a : ℕ}
    (hl : Chain hp.nextFree hp.freeList (pre ++ a :: post)) :
    Chain (hp.write (linkTo .head pre) (hp.nextFree a)).nextFree
      (hp.write (linkTo .head pre) (hp.nextFree a)).freeList (pre ++ post) := by
  rcases List.eq_nil_or_concat pre with rfl | ⟨init, p, rfl⟩
  · exact hl.2.2
  · rw [List.concat_eq_append, List.append_assoc] at hl ⊢
    rw [linkTo_concat]
    refine hl.unlink ?_ ?_
    · intro c hc
      exact (nextFree_setNextFree ..).trans (if_neg hc)
    · exact (nextFree_setNextFree ..).trans (if_pos rfl)

theorem takeFree_eq {hp : Heap} {link : Link} {a : ℕ} (hread : hp.read link = a) (h16 : a % 16 = 0)
    (hlt : a + 31 < 18446744073709551616) :
    takeFree hp 16 link = (a + 16, hp.write link (hp.nextFree a)) := by
  have hraw : u64 (a + headerSize) = a + 16 := u64_of_lt (by unfold headerSize; omega)
  have hup : alignUp (a + 16) 16 = a + 16 := alignUp_of_aligned (by omega) (by omega)
  have hpad : ¬0 < u64 (a + 16 + 18446744073709551616 - (a + 16)) := by
    unfold u64
    omega
  simp only [takeFree, hread, hraw, hup, if_neg hpad]

/- Handing out a block of the free list. -/
theorem take_inv (h : HeapInv b blocks st) {pre post : List ℕ} {a size : ℕ}
    (hfreed : st.freed = pre ++ a :: post) (hfit : size + 16 ≤ st.heap.size a) :
    HeapInv b blocks ⟨st.heap.write (linkTo .head pre) (st.heap.nextFree a),
      ⟨a, size⟩ :: st.live, st.freed.erase a⟩ := by
  have hbound : ∀ c ∈ st.live.map Block.header ++ st.freed, c % 16 = 0 := fun c hc =>
    (h.header_bounds (h.parts.subset hc)).1
  have hlink : ∀ c, linkTo .head pre = .next c → c % 16 = 0 := by
    intro c hc
    rcases List.eq_nil_or_concat pre with rfl | ⟨init, p, rfl⟩
    · cases hc
    · rw [List.concat_eq_append, linkTo_concat] at hc
      cases hc
      refine hbound c (List.mem_append_right _ ?_)
      rw [hfreed, List.concat_eq_append]
      simp
  have herase : st.freed.erase a = pre ++ post := by
    have hnd := h.chain.nodup
    rw [hfreed] at hnd ⊢
    have hpre : a ∉ pre := fun hin => by
      have hdis := (List.nodup_append.mp hnd).2.2
      exact hdis a hin a (List.mem_cons_self ..) rfl
    rw [List.erase_append_right _ hpre, List.erase_cons_head]
  have hchain := h.chain
  have hparts := h.parts
  rw [hfreed] at hchain hparts
  rw [herase]
  refine ⟨h.carved.write hlink _, unlink_chain hchain, ?_, ?_⟩
  · refine List.Perm.trans ?_ hparts
    rw [List.map_cons, List.cons_append, ← List.append_assoc, ← List.append_assoc]
    exact List.perm_middle.symm
  · intro k hk
    rcases List.mem_cons.mp hk with rfl | hk
    · have ha := hbound a (List.mem_append_right _ (by rw [hfreed]; simp))
      exact hfit.trans_eq (read_write_size _ _ _ _ hlink ha).symm
    · have hk16 := hbound k.header (List.mem_append_left _ (List.mem_map_of_mem hk))
      exact (h.room k hk).trans_eq (read_write_size _ _ _ _ hlink hk16).symm

/- `carve` without the reductions: the padding makes room for a header and aligns it. -/
theorem carve_eq (hp : Heap) (hoff : hp.offset ≤ allocatorSize) {size : ℕ} (hsize : size ≤ 65535) :
    ∃ pad, 16 ≤ pad ∧ (b.base + hp.offset + pad) % 16 = 0 ∧
      carve b hp 16 (size + 16) =
        if allocatorSize < hp.offset + pad + (size + 16) then (0, hp)
        else (b.base + hp.offset + pad + 16, ({hp with
          offset := hp.offset + pad + (size + 16)} : Heap).setSize
            (b.base + hp.offset + pad) (size + 16)) := by
  have hfits := b.fits
  have hsz : allocatorSize = 524288 := rfl
  have haddr : u64 (b.base + hp.offset) = b.base + hp.offset := u64_of_lt (by omega)
  obtain ⟨hp16, hp31, hpal⟩ := headerPadding_sixteen (b.base + hp.offset)
  refine ⟨headerPadding (b.base + hp.offset) 16, hp16, hpal, ?_⟩
  unfold carve
  dsimp only
  rw [haddr]
  generalize headerPadding (b.base + hp.offset) 16 = pad at hp16 hp31 hpal ⊢
  have hend : u64 (hp.offset + pad + (size + 16)) = hp.offset + pad + (size + 16) :=
    u64_of_lt (by omega)
  rw [hend]
  by_cases hfull : allocatorSize < hp.offset + pad + (size + 16)
  · rw [if_pos hfull, if_pos hfull]
  · have hheader : u64 (b.base + hp.offset + pad) = b.base + hp.offset + pad :=
      u64_of_lt (by omega)
    have hptr : u64 (b.base + hp.offset + pad + headerSize) = b.base + hp.offset + pad + 16 :=
      u64_of_lt (by unfold headerSize; omega)
    rw [if_neg hfull, if_neg hfull, hheader, hptr]

/- A block carved behind all others. -/
theorem Carved.grow {hp : Heap} (h : Carved b hp blocks) {pad size : ℕ} (hpad : 16 ≤ pad)
    (hal : (b.base + hp.offset + pad) % 16 = 0)
    (hend : hp.offset + pad + (size + 16) ≤ allocatorSize) :
    Carved b (({hp with offset := hp.offset + pad + (size + 16)} : Heap).setSize
      (b.base + hp.offset + pad) (size + 16)) ((b.base + hp.offset + pad, size + 16) :: blocks) := by
  have hbehind : ∀ k ∈ blocks, k.1 + k.2 ≤ b.base + hp.offset + pad ∧
      k.1 < b.base + hp.offset + pad := fun k hk => by
    have hb := h.bounds k hk
    omega
  refine ⟨hend, ?_, ?_, ?_, ?_, ?_⟩
  · have hcount := h.count
    show 32 * (blocks.length + 1) ≤ hp.offset + pad + (size + 16)
    omega
  · intro k hk
    rcases List.mem_cons.mp hk with rfl | hk
    · exact Function.update_self ..
    · rw [← h.sizes k hk]
      exact Function.update_of_ne (Nat.ne_of_lt (hbehind k hk).2) _ _
  · intro k hk
    rcases List.mem_cons.mp hk with rfl | hk
    · exact hal
    · exact h.aligned k hk
  · intro k hk
    show b.base + 16 ≤ k.1 ∧ 16 ≤ k.2 ∧ k.1 + k.2 ≤ b.base + (hp.offset + pad + (size + 16))
    rcases List.mem_cons.mp hk with rfl | hk
    · dsimp only
      omega
    · have hb := h.bounds k hk
      omega
  · exact List.pairwise_cons.mpr ⟨fun k hk => Or.inr (hbehind k hk).1, h.apart⟩

/- Carving a new block behind all others, or none when the buffer is full. -/
theorem carve_inv (h : HeapInv b blocks st) {size : ℕ} (hsize : size ≤ 65535) :
    carve b st.heap 16 (size + 16) = (0, st.heap) ∨
    ∃ a hp, carve b st.heap 16 (size + 16) = (a + 16, hp) ∧ hp.offset ≠ st.heap.offset ∧
      a ∉ st.freed ∧ HeapInv b ((a, size + 16) :: blocks) ⟨hp, ⟨a, size⟩ :: st.live, st.freed⟩ := by
  obtain ⟨pad, hpad, hal, hcarve⟩ := carve_eq (b := b) st.heap h.carved.offset_le hsize
  rw [hcarve]
  by_cases hfull : allocatorSize < st.heap.offset + pad + (size + 16)
  · exact Or.inl (if_pos hfull)
  -- the new header lies behind those of all blocks
  have hin : ∀ c ∈ st.live.map Block.header ++ st.freed,
      c + 16 ≤ b.base + st.heap.offset + pad := by
    intro c hc
    obtain ⟨k, hk, rfl⟩ := List.mem_map.mp (h.parts.subset hc)
    have hb := h.carved.bounds k hk
    omega
  have hgrown : st.heap.offset + pad + (size + 16) ≠ st.heap.offset := by omega
  refine Or.inr ⟨_, _, if_neg hfull, hgrown, fun hmem => ?_,
    h.carved.grow hpad hal (Nat.le_of_not_lt hfull), ?_, h.parts.cons _, ?_⟩
  · have hc := hin _ (List.mem_append_right _ hmem)
    omega
  · refine h.chain.congr fun c hc => ?_
    have hlt := hin c (List.mem_append_right _ hc)
    exact Function.update_of_ne (by omega) _ _
  · intro k hk
    rcases List.mem_cons.mp hk with rfl | hk
    · exact (Function.update_self (b.base + st.heap.offset + pad) (size + 16) st.heap.mem).ge
    · have hlt := hin k.header (List.mem_append_left _ (List.mem_map_of_mem hk))
      have hkeep : Function.update st.heap.mem (b.base + st.heap.offset + pad) (size + 16)
          k.header = st.heap.mem k.header := Function.update_of_ne (by omega) _ _
      exact (h.room k hk).trans_eq hkeep.symm

/- The owners' writes stay inside their payloads, away from every header. -/
theorem write_inv (h : HeapInv b blocks st) (value : ℕ → ℕ) :
    HeapInv b blocks {st with heap := {st.heap with
      mem := fun a => if ∃ k ∈ st.live, k.ptr ≤ a ∧ a < k.stop then value a else st.heap.mem a}} := by
  have hkeep : ∀ c ∈ blocks, ∀ a, c.1 ≤ a → a < c.1 + 16 →
      ¬∃ k ∈ st.live, k.ptr ≤ a ∧ a < k.stop := by
    rintro c hc a hlo hhi ⟨k, hk, hptr, hstop⟩
    have hmem := h.live_mem hk
    have hroom := h.room k hk
    have hb := (h.carved.bounds c hc).2.1
    unfold Block.stop Block.ptr headerSize at *
    by_cases heq : c.1 = k.header
    · omega
    · have hap := h.carved.apart_of_ne hc hmem heq
      unfold Apart at hap
      dsimp only at hap
      omega
  have hmem : ∀ c ∈ st.live.map Block.header ++ st.freed, ∃ k ∈ blocks, k.1 = c := fun c hc =>
    List.mem_map.mp (h.parts.subset hc)
  refine ⟨⟨h.carved.offset_le, h.carved.count, ?_, h.carved.aligned, h.carved.bounds,
    h.carved.apart⟩, ?_, h.parts, ?_⟩
  · intro k hk
    rw [← h.carved.sizes k hk]
    exact if_neg (hkeep k hk k.1 le_rfl (by omega))
  · refine h.chain.congr fun a ha => ?_
    obtain ⟨k, hk, rfl⟩ := hmem a (List.mem_append_right _ ha)
    exact if_neg (hkeep k hk (k.1 + 8) (by omega) (by omega))
  · intro k hk
    obtain ⟨c, hc, he⟩ := hmem k.header (List.mem_append_left _ (List.mem_map_of_mem hk))
    refine (h.room k hk).trans_eq (Eq.symm ?_)
    exact if_neg (hkeep c hc k.header (by omega) (by omega))

end Operations

/-! ### Runs -/

section Runs
variable {b : Buffer} {fuel : ℕ} {blocks : List (ℕ × ℕ)} {st : HeapRun}

/- `aligned_alloc` of a 16-byte aligned block, by the outcome of the search. -/
theorem alignedAlloc_found {hp : Heap} {size : ℕ} {current : Link} (hsize : size ≤ 65535)
    (hfound : findFit hp (size + 16) fuel .head = some (some current)) :
    alignedAlloc b fuel hp 16 size = some (takeFree hp 16 current) := by
  have htotal : u64 (size + headerSize) = size + 16 := u64_of_lt (by unfold headerSize; omega)
  have hal : ¬(16 &&& (16 - 1) ≠ 0) := by decide
  simp only [alignedAlloc, htotal, if_neg (by decide : ¬16 < 8), if_neg hal, hfound]
  rfl

theorem alignedAlloc_notFound {hp : Heap} {size : ℕ} (hsize : size ≤ 65535)
    (hnone : findFit hp (size + 16) fuel .head = some none) :
    alignedAlloc b fuel hp 16 size = some (carve b hp 16 (size + 16)) := by
  have htotal : u64 (size + headerSize) = size + 16 := u64_of_lt (by unfold headerSize; omega)
  have hal : ¬(16 &&& (16 - 1) ≠ 0) := by decide
  simp only [alignedAlloc, htotal, if_neg (by decide : ¬16 < 8), if_neg hal, hnone]
  rfl

/- Either the request leaves `allocator_offset` alone, or no free block is large
enough and the new block is behind all others. -/
theorem alloc_step (h : HeapInv b blocks st) (hfuel : 16384 < fuel) {size : ℕ}
    (hsize : size ≤ 65535) :
    ∃ r st', alignedAlloc b fuel st.heap 16 size = some r ∧
      heapStep b fuel st (.alloc size) = some st' ∧
      ((r.2.offset = st.heap.offset ∧ HeapInv b blocks st') ∨
        (∃ a, r.1 = a + 16 ∧ r.2.offset ≠ st.heap.offset ∧ st'.heap = r.2 ∧
          st'.live = ⟨a, size⟩ :: st.live ∧ (∀ c ∈ st.freed, st.heap.size c < size + 16) ∧
          HeapInv b ((a, size + 16) :: blocks) st')) := by
  have hlen := h.freed_length
  have hfind : Chain st.heap.nextFree (st.heap.read .head) st.freed := h.chain
  rcases findFit_spec st.heap (size + 16) fuel hfind (by omega) with
    ⟨pre, a, post, hfreed, hfit, hfound, hread, -⟩ | ⟨hnone, hsmall⟩
  · have hin : a ∈ st.freed := by rw [hfreed]; simp
    obtain ⟨h16, hlo, hhi⟩ := h.header_bounds (h.parts.subset (List.mem_append_right _ hin))
    have hfits := b.fits
    have hroom := (h.carved.bounds _ (h.freed_mem hin)).2.2
    have hoff := h.carved.offset_le
    have htake := takeFree_eq hread h16 (by dsimp only at hroom; omega)
    have hinv := take_inv h hfreed hfit
    refine ⟨_, _, alignedAlloc_found hsize hfound, ?_, Or.inl ⟨?_, hinv⟩⟩
    · simp only [heapStep, alignedAlloc_found hsize hfound, Option.map_some, htake]
      rfl
    · rw [htake]
      cases linkTo .head pre <;> rfl
  · have halloc := alignedAlloc_notFound (b := b) hsize hnone
    rcases carve_inv h hsize with hfull | ⟨a, hp, hcarve, hgrown, hfresh, hinv⟩
    · refine ⟨_, _, halloc, ?_, Or.inl ⟨?_, h⟩⟩
      · simp only [heapStep, halloc, Option.map_some, hfull, if_true]
      · rw [hfull]
    · have hne : ¬a + 16 = 0 := by omega
      have hsub : a + 16 - headerSize = a := Nat.add_sub_cancel a 16
      refine ⟨_, _, halloc, ?_, Or.inr ⟨a, ?_, ?_, ?_, rfl, hsmall, hinv⟩⟩
      · simp only [heapStep, halloc, Option.map_some, hcarve, if_neg hne, hsub,
          List.erase_of_not_mem hfresh]
      · rw [hcarve]
      · rw [hcarve]
        exact hgrown
      · rw [hcarve]

theorem free_step (h : HeapInv b blocks st) {ptr : ℕ} (hok : HeapOk st (.free ptr)) :
    ∃ st', heapStep b fuel st (.free ptr) = some st' ∧ HeapInv b blocks st' := by
  by_cases hnull : ptr = 0
  · subst hnull
    exact ⟨st, rfl, h⟩
  · rcases hok with hz | ⟨k, hk, rfl⟩
    · exact absurd hz hnull
    · refine ⟨_, ?_, free_inv h hk⟩
      have hsub : k.ptr - headerSize = k.header := Nat.add_sub_cancel k.header 16
      rw [heapStep, if_neg hnull, hsub]

theorem heap_step (h : HeapInv b blocks st) (hfuel : 16384 < fuel) (op : HeapOp)
    (hok : HeapOk st op) :
    ∃ blocks' st', heapStep b fuel st op = some st' ∧ HeapInv b blocks' st' := by
  cases op with
  | alloc size =>
    obtain ⟨-, st', -, hstep, ⟨-, h'⟩ | ⟨a, -, -, -, -, -, h'⟩⟩ := alloc_step h hfuel hok
    · exact ⟨blocks, st', hstep, h'⟩
    · exact ⟨(a, size + 16) :: blocks, st', hstep, h'⟩
  | write value => exact ⟨blocks, _, rfl, write_inv h value⟩
  | free ptr =>
    obtain ⟨st', hstep, h'⟩ := free_step h hok
    exact ⟨blocks, st', hstep, h'⟩

theorem HeapInv.safe (h : HeapInv b blocks st) (hfuel : 16384 < fuel) : Safe b fuel st := by
  have hlen := h.freed_length
  have hoff := h.carved.offset_le
  have hnodup := List.nodup_append.mp h.nodup
  have hstop : ∀ k ∈ st.live, k.stop ≤ k.header + st.heap.size k.header := fun k hk => by
    have hroom := h.room k hk
    unfold Block.stop Block.ptr headerSize
    omega
  refine ⟨?_, ?_, ?_, ?_, h.chain, h.chain.nodup, ?_⟩
  · intro k hk
    have h16 := h.carved.aligned _ (h.live_mem hk)
    unfold Block.ptr headerSize
    dsimp only at h16
    omega
  · intro k hk
    have hb := h.carved.bounds _ (h.live_mem hk)
    have hs := hstop k hk
    dsimp only at hb
    omega
  · have hpw := List.pairwise_map.mp hnodup.1
    refine hpw.imp_of_mem fun {k k'} hk hk' hne => ?_
    have hap := h.carved.apart_of_ne (h.live_mem hk) (h.live_mem hk') hne
    have h1 := hstop k hk
    have h2 := hstop k' hk'
    unfold Apart at hap ⊢
    dsimp only at hap
    omega
  · intro k hk a ha
    have hne : k.header ≠ a := hnodup.2.2 k.header (List.mem_map_of_mem hk) a ha
    have hap := h.carved.apart_of_ne (h.live_mem hk) (h.freed_mem ha) hne
    have h1 := hstop k hk
    unfold Apart at hap ⊢
    dsimp only at hap
    omega
  · intro totalSize
    have hfind : Chain st.heap.nextFree (st.heap.read .head) st.freed := h.chain
    rcases findFit_spec st.heap totalSize fuel hfind (by omega) with
      ⟨pre, a, post, -, -, hfound, -, -⟩ | ⟨hnone, -⟩
    · exact ⟨_, hfound⟩
    · exact ⟨_, hnone⟩

theorem heapInit_inv (b : Buffer) (mem : ℕ → ℕ) : HeapInv b [] (heapInit mem) :=
  ⟨⟨Nat.zero_le _, le_rfl, fun _ hk => absurd hk List.not_mem_nil,
    fun _ hk => absurd hk List.not_mem_nil, fun _ hk => absurd hk List.not_mem_nil,
    List.Pairwise.nil⟩, rfl, List.Perm.refl _, fun _ hk => absurd hk List.not_mem_nil⟩

end Runs

/-- From the initial heap on, every sequence of 16-byte aligned requests of at
most 65535 bytes, of valid frees and of writes to live blocks is safe; a search
bounded by 16385 rounds is enough. -/
theorem heap_safe (b : Buffer) (fuel : ℕ) (hfuel : 16384 < fuel) (mem : ℕ → ℕ) (ops : List HeapOp)
    (hok : Run.Guarded (heapStep b fuel) HeapOk (heapInit mem) ops) :
    Run.Throughout (heapStep b fuel) (Safe b fuel) (heapInit mem) ops := by
  have hstep : ∀ st op, (∃ blocks, HeapInv b blocks st) → HeapOk st op →
      ∃ st', heapStep b fuel st op = some st' ∧ ∃ blocks, HeapInv b blocks st' := by
    rintro st op ⟨blocks, h⟩ hop
    obtain ⟨blocks', st', hs, h'⟩ := heap_step h hfuel op hop
    exact ⟨st', hs, blocks', h'⟩
  have hinit : ∃ blocks, HeapInv b blocks (heapInit mem) := ⟨[], heapInit_inv b mem⟩
  exact (Run.throughout_of_invariant hstep hinit hok).mono fun st ⟨_, h⟩ => h.safe hfuel

def lowBuffer : Buffer := ⟨4097, by decide⟩

theorem heap_safe_reuse :
    Run.Throughout (heapStep lowBuffer 16385) (Safe lowBuffer 16385) (heapInit fun _ => 0)
      [.alloc 32, .free 4144, .alloc 8] := by
  have hlive : (heapStep lowBuffer 16385 (heapInit fun _ => 0) (.alloc 32)).map HeapRun.live =
      some [⟨4128, 32⟩] := by decide
  refine heap_safe lowBuffer 16385 (by decide) (fun _ => 0) [.alloc 32, .free 4144, .alloc 8]
    ⟨(by decide : 32 ≤ 65535), ?_⟩
  intro st hst
  rw [hst] at hlive
  have hmem : st.live = [⟨4128, 32⟩] := Option.some.inj hlive
  refine ⟨Or.inr ⟨⟨4128, 32⟩, ?_, rfl⟩, fun _ _ => ⟨(by decide : 8 ≤ 65535), fun _ _ => trivial⟩⟩
  rw [hmem]
  exact List.mem_cons_self ..

end CasseOS.Mem
