import CasseOS.Mem.Alignment

/-! # Room of the memory handed out

A block of the free list loses what is skipped to the next aligned address; the
search has only compared its size with that of the request. The sums of a request
that the tail serves are taken modulo `2 ^ 64`. Where neither of the two matters,
the memory handed out lies in the buffer, apart from all live blocks. -/

namespace CasseOS.Mem
open CInt

/-! ### What is asked for -/

/- Requests of any size for a power of two; only `NULL` or a live pointer is freed. -/
def PowerRequests (st : HeapRun) : AllocOp → Prop
  | .alloc alignment _ => ∃ k, alignment.toNat = 2 ^ k
  | .free ptr => HeapOk st (.free ptr)
  | .write value => HeapOk st (.write value)

/- `size` bytes from `p` on, in the buffer and apart from the headers and the memory of
all live blocks. -/
structure HasRoom (b : Buffer) (st : HeapRun) (p size : ℕ) : Prop where
  inside : b.base ≤ p ∧ p + size ≤ b.base + allocatorSize
  apart : ∀ k ∈ st.live, Apart p (p + size) k.header k.stop

/- The call returns: memory with room, or `NULL` and the heap as it was. -/
def RequestMet (b : Buffer) (fuel : ℕ) (st : HeapRun) : AllocOp → Prop
  | .alloc alignment size => ∃ p hp,
      alignedAlloc b fuel st.heap alignment.toNat size.toNat = some (p, hp) ∧
        (p ≠ 0 → HasRoom b st p size.toNat) ∧ (p = 0 → hp = st.heap)
  | _ => True

/- The first free block that is large enough has room for what is skipped too; without
one, the request and its paddings fit in the tail if their sum modulo `2 ^ 64` does. -/
def RoomEnough (b : Buffer) (st : HeapRun) : AllocOp → Prop
  | .alloc alignment size =>
    match st.freed.find? fun h => u64 (size.toNat + headerSize) ≤ st.heap.size h with
    | some h => padTo (max alignment.toNat 8) (h + 16) + (size.toNat + 16) ≤ st.heap.size h
    | none =>
      u64 (st.heap.offset + tailPadding b st.heap (max alignment.toNat 8) +
          u64 (size.toNat + headerSize)) ≤ allocatorSize →
        st.heap.offset + tailPadding b st.heap (max alignment.toNat 8) + (size.toNat + 16) ≤
          allocatorSize
  | _ => True

/-! ### The layout -/

def BlocksApart (hp : Heap) (h h' : ℕ) : Prop := Apart h (h + hp.size h) h' (h' + hp.size h')

/- The headers `hs` of the blocks carved so far. -/
structure Laid (b : Buffer) (hp : Heap) (hs : List ℕ) : Prop where
  offset_le : hp.offset ≤ allocatorSize
  count : 24 * hs.length ≤ hp.offset
  aligned : ∀ h ∈ hs, 8 ∣ h
  bounds : ∀ h ∈ hs, b.base + 8 ≤ h ∧ 16 ≤ hp.size h ∧ h + hp.size h ≤ b.base + hp.offset
  apart : hs.Pairwise (BlocksApart hp)

def HeapRun.headers (st : HeapRun) : List ℕ := st.live.map Block.header ++ st.freed

structure RoomInv (b : Buffer) (st : HeapRun) : Prop where
  laid : Laid b st.heap st.headers
  chain : Chain st.heap.nextFree st.heap.freeList st.freed
  room : ∀ k ∈ st.live, k.size + 16 ≤ st.heap.size k.header

section Layout
variable {b : Buffer} {hp hp' : Heap} {hs hs' : List ℕ} {a c v : ℕ}

theorem BlocksApart.symm (h : BlocksApart hp a c) : BlocksApart hp c a := Or.symm h

theorem Laid.apart_of_ne (h : Laid b hp hs) (ha : a ∈ hs) (hc : c ∈ hs) (hne : a ≠ c) :
    BlocksApart hp a c :=
  have : Std.Symm (BlocksApart hp) := ⟨fun _ _ hac => hac.symm⟩
  h.apart.forall ha hc hne

theorem Laid.nodup (h : Laid b hp hs) : hs.Nodup := by
  refine h.apart.imp_of_mem fun {a c} ha hc hap heq => ?_
  have h1 := (h.bounds a ha).2.1
  have h2 := (h.bounds c hc).2.1
  unfold BlocksApart Apart at hap
  omega

theorem Laid.length_le (h : Laid b hp hs) : hs.length ≤ 21845 := by
  have hcount := h.count
  have hoff := h.offset_le
  unfold allocatorSize at hoff
  omega

/- The first word of a block is not the second word of another one. -/
theorem Laid.ne_link (h : Laid b hp hs) (ha : a ∈ hs) (hc : c ∈ hs) : a ≠ c + 8 := by
  intro heq
  have hne : a ≠ c := by omega
  have hap := h.apart_of_ne ha hc hne
  have h1 := (h.bounds a ha).2.1
  have h2 := (h.bounds c hc).2.1
  unfold BlocksApart Apart at hap
  omega

/- The layout is a matter of the tail and the recorded sizes. -/
theorem Laid.frame (h : Laid b hp hs) (hoff : hp'.offset = hp.offset)
    (hsize : ∀ a ∈ hs, hp'.size a = hp.size a) (hperm : hs'.Perm hs) : Laid b hp' hs' := by
  have hsize' : ∀ a ∈ hs', hp'.size a = hp.size a := fun a ha => hsize a (hperm.subset ha)
  refine ⟨hoff ▸ h.offset_le, ?_, fun a ha => h.aligned a (hperm.subset ha), fun a ha => ?_, ?_⟩
  · rw [hoff, hperm.length_eq]
    exact h.count
  · rw [hsize' a ha, hoff]
    exact h.bounds a (hperm.subset ha)
  · refine ((hperm.pairwise_iff BlocksApart.symm).mpr h.apart).imp_of_mem fun {a c} ha hc hap => ?_
    unfold BlocksApart at hap ⊢
    rw [hsize' a ha, hsize' c hc]
    exact hap

/- Writing the link of a header. -/
theorem Laid.size_setNextFree (h : Laid b hp hs) (ha : a ∈ hs) (hc : c ∈ hs) (v : ℕ) :
    (hp.setNextFree a v).size c = hp.size c :=
  Function.update_of_ne (h.ne_link hc ha) _ _

theorem Laid.size_write (h : Laid b hp hs) {link : Link} (hlink : ∀ a, link = .next a → a ∈ hs)
    (hc : c ∈ hs) (v : ℕ) : (hp.write link v).size c = hp.size c := by
  cases link with
  | head => rfl
  | next a => exact h.size_setNextFree (hlink a rfl) hc v

end Layout

/-! ### The operations keep the invariant -/

section Operations
variable {b : Buffer} {st : HeapRun}

theorem RoomInv.nodup (h : RoomInv b st) : (st.live.map Block.header ++ st.freed).Nodup :=
  h.laid.nodup

theorem RoomInv.live_mem {st : HeapRun} {k : Block} (hk : k ∈ st.live) : k.header ∈ st.headers :=
  List.mem_append_left _ (List.mem_map_of_mem hk)

theorem RoomInv.freed_mem {st : HeapRun} {a : ℕ} (ha : a ∈ st.freed) : a ∈ st.headers :=
  List.mem_append_right _ ha

/- Freeing a live block. -/
theorem RoomInv.free (h : RoomInv b st) {k : Block} (hk : k ∈ st.live) :
    RoomInv b ⟨alignedFree st.heap k.ptr, st.live.filter fun k' => k'.ptr ≠ k.ptr,
      k.header :: st.freed⟩ := by
  have hmem := RoomInv.live_mem hk
  have hbound := h.laid.bounds k.header hmem
  have hoff := h.laid.offset_le
  have hfits := b.fits
  have hlt : k.header + headerSize < 2 ^ 64 := by
    unfold headerSize
    omega
  have hnodup := List.nodup_append.mp h.nodup
  have hsize : ∀ a ∈ st.headers,
      (st.heap.setNextFree k.header st.heap.freeList).size a = st.heap.size a :=
    fun a ha => h.laid.size_setNextFree hmem ha _
  rw [alignedFree_block st.heap hlt]
  refine ⟨h.laid.frame rfl hsize (freed_perm hnodup.1 hk),
    chain_setNextFree h.chain (by omega) (live_not_freed h.nodup hk), ?_⟩
  intro k' hk'
  have hin := (List.mem_filter.mp hk').1
  exact (h.room k' hin).trans_eq (hsize _ (RoomInv.live_mem hin)).symm

/- A header is put at the front of what is left of a block, and the block moves
elsewhere in the list. -/
theorem Laid.shrink {hp hp' : Heap} {hs hs' rest : List ℕ} {a pad : ℕ} (h : Laid b hp hs)
    (hperm : hs.Perm (a :: rest)) (hperm' : hs'.Perm ((a + pad) :: rest)) (hpad : 8 ∣ a + pad)
    (hfit : pad + 16 ≤ hp.size a) (hoff : hp'.offset = hp.offset)
    (hsize : ∀ c ∈ rest, hp'.size c = hp.size c) (hsize' : hp'.size (a + pad) = hp.size a - pad) :
    Laid b hp' hs' := by
  have h := h.frame rfl (fun _ _ => rfl) hperm.symm
  have ha := h.bounds a (List.mem_cons_self ..)
  have hcons := List.pairwise_cons.mp h.apart
  suffices hnew : Laid b hp' ((a + pad) :: rest) from
    hnew.frame rfl (fun _ _ => rfl) hperm'
  refine ⟨hoff ▸ h.offset_le, hoff ▸ h.count, ?_, ?_, List.pairwise_cons.mpr ⟨?_, ?_⟩⟩
  · intro c hc
    obtain rfl | hc := List.mem_cons.mp hc
    · exact hpad
    · exact h.aligned c (List.mem_cons_of_mem a hc)
  · intro c hc
    rw [hoff]
    obtain rfl | hc := List.mem_cons.mp hc
    · rw [hsize']
      omega
    · rw [hsize c hc]
      exact h.bounds c (List.mem_cons_of_mem a hc)
  · intro c hc
    have hap := hcons.1 c hc
    unfold BlocksApart Apart at hap ⊢
    rw [hsize', hsize c hc]
    omega
  · refine hcons.2.imp_of_mem fun {c d} hc hd hap => ?_
    unfold BlocksApart at hap ⊢
    rw [hsize c hc, hsize d hd]
    exact hap

end Operations

/-! ### Taking a block of the free list -/

section Take
variable {b : Buffer} {st : HeapRun} {hp : Heap} {a j : ℕ} {current : Link}

theorem roundUp_eq {n : ℕ} (hn : 0 < n) (a : ℕ) : (a + (n - 1)) / n * n = a + padTo n a := by
  obtain ⟨m, hm⟩ := dvd_add_padTo hn a
  have hlt := padTo_lt hn a
  have hsplit : a + (n - 1) = (n - 1 - padTo n a) + n * m := by omega
  rw [hsplit, Nat.add_mul_div_left _ _ hn, Nat.div_eq_of_lt (by omega), Nat.zero_add, hm,
    Nat.mul_comm]

/- Without wrap-around `aligned_address` is the next multiple. -/
theorem alignUp_of_room (hj : j ≤ 64) (h : a + padTo (2 ^ j) a < 18446744073709551616) :
    alignUp a (2 ^ j) = a + padTo (2 ^ j) a := by
  have hpos : 0 < 2 ^ j := Nat.two_pow_pos j
  have hround := roundUp_eq hpos a
  have hlt : a + (2 ^ j - 1) < 18446744073709551616 := by
    by_contra hge
    obtain ⟨q, hq⟩ : 2 ^ j ∣ 18446744073709551616 := pow_dvd_pow (n := 64) 2 hj
    -- a whole number of alignments up to the end of the address space
    have hle : q ≤ (a + (2 ^ j - 1)) / 2 ^ j :=
      (Nat.le_div_iff_mul_le hpos).mpr (by rw [Nat.mul_comm, ← hq]; omega)
    have hmul := Nat.mul_le_mul_right (2 ^ j) hle
    rw [hround, Nat.mul_comm q, ← hq] at hmul
    omega
  rw [alignUp_eq hj, u64_of_lt hlt, hround]

/- The block begins with the new header; the words elsewhere are those of the heap
with the block unlinked. -/
theorem takeFree_room (hj : j ≤ 64) (hread : hp.read current = a)
    (hlt : a + 16 + padTo (2 ^ j) (a + 16) < 18446744073709551616)
    (hsize : padTo (2 ^ j) (a + 16) ≤ (hp.write current (hp.nextFree a)).size a)
    (hword : (hp.write current (hp.nextFree a)).size a < 18446744073709551616) :
    ∃ hp', takeFree hp (2 ^ j) current = (a + padTo (2 ^ j) (a + 16) + 16, hp') ∧
      hp'.offset = hp.offset ∧ hp'.freeList = (hp.write current (hp.nextFree a)).freeList ∧
      (∀ x, x ≠ a + padTo (2 ^ j) (a + 16) →
        hp'.mem x = (hp.write current (hp.nextFree a)).mem x) ∧
      hp'.size (a + padTo (2 ^ j) (a + 16)) =
        (hp.write current (hp.nextFree a)).size a - padTo (2 ^ j) (a + 16) := by
  have hraw : u64 (a + headerSize) = a + 16 := u64_of_lt (by unfold headerSize; omega)
  have hup := alignUp_of_room hj hlt
  have hoffset : (hp.write current (hp.nextFree a)).offset = hp.offset := by
    cases current with
    | head => rfl
    | next header => rfl
  simp only [takeFree, hread, hraw, hup]
  generalize hp.write current (hp.nextFree a) = unlinked at hsize hword hoffset ⊢
  generalize padTo (2 ^ j) (a + 16) = pad at hlt hsize ⊢
  have hpad : u64 (a + 16 + pad + 18446744073709551616 - (a + 16)) = pad := by
    unfold u64
    omega
  have hheader : u64 (a + 16 + pad + 18446744073709551616 - headerSize) = a + pad := by
    unfold u64 headerSize
    omega
  have hleft : u64 (unlinked.size a + 18446744073709551616 - pad) = unlinked.size a - pad := by
    unfold u64
    omega
  rw [hpad]
  obtain rfl | hpos := Nat.eq_zero_or_pos pad
  · exact ⟨unlinked, by rw [if_neg (Nat.lt_irrefl 0)], hoffset, rfl, fun _ _ => rfl, rfl⟩
  · have hptr : u64 (a + pad + headerSize) = a + pad + 16 := u64_of_lt (by unfold headerSize; omega)
    refine ⟨unlinked.setSize (a + pad) (unlinked.size a - pad), ?_, hoffset, rfl, ?_, ?_⟩
    · rw [if_pos hpos, hheader, hleft, hptr]
    · exact fun x hx => Function.update_of_ne hx _ _
    · exact Function.update_self ..

/- The header that the link behind `pre` belongs to. -/
theorem mem_of_linkTo {pre : List ℕ} {c : ℕ} (h : linkTo .head pre = .next c) : c ∈ pre := by
  rcases List.eq_nil_or_concat pre with rfl | ⟨init, p, rfl⟩
  · cases h
  · rw [List.concat_eq_append, linkTo_concat] at h
    cases h
    rw [List.concat_eq_append]
    exact List.mem_append_right _ (List.mem_singleton_self _)

/- A free block is handed out, with what is skipped cut off at its front. -/
theorem RoomInv.take (h : RoomInv b st) {pre post : List ℕ} {size : ℕ} (hj : 3 ≤ j) (hj' : j ≤ 64)
    (hfreed : st.freed = pre ++ a :: post) (hread : st.heap.read (linkTo .head pre) = a)
    (hfit : padTo (2 ^ j) (a + 16) + (size + 16) ≤ st.heap.size a) :
    ∃ hp', takeFree st.heap (2 ^ j) (linkTo .head pre) = (a + padTo (2 ^ j) (a + 16) + 16, hp') ∧
      RoomInv b ⟨hp', ⟨a + padTo (2 ^ j) (a + 16), size⟩ :: st.live, pre ++ post⟩ := by
  have hfits := b.fits
  have hoff := h.laid.offset_le
  have hin : ∀ c ∈ pre ++ a :: post, c ∈ st.headers := fun c hc =>
    List.mem_append_right _ (hfreed ▸ hc)
  have ha : a ∈ st.headers := hin a (List.mem_append_right _ (List.mem_cons_self ..))
  have hbound := h.laid.bounds a ha
  have hperm : st.headers.Perm (a :: (st.live.map Block.header ++ (pre ++ post))) := by
    rw [HeapRun.headers, hfreed, ← List.append_assoc, ← List.append_assoc]
    exact List.perm_middle
  have hrest : ∀ c ∈ st.live.map Block.header ++ (pre ++ post), c ∈ st.headers ∧ c ≠ a := by
    intro c hc
    have hnodup := List.nodup_cons.mp (hperm.nodup_iff.mp h.laid.nodup)
    exact ⟨hperm.symm.subset (List.mem_cons_of_mem a hc), fun he => hnodup.1 (he ▸ hc)⟩
  have hkeep : ∀ c ∈ st.headers,
      (st.heap.write (linkTo .head pre) (st.heap.nextFree a)).size c = st.heap.size c :=
    fun c hc => h.laid.size_write
      (fun p hp => hin p (List.mem_append_left _ (mem_of_linkTo hp))) hc _
  have hmultiple : 8 ∣ a + padTo (2 ^ j) (a + 16) := by
    have hup := dvd_add_padTo (Nat.two_pow_pos j) (a + 16)
    have hsum : 8 ∣ a + 16 + padTo (2 ^ j) (a + 16) := (pow_dvd_pow (m := 3) 2 hj).trans hup
    omega
  obtain ⟨hp', htake, hoff', hlist, hmem, hnew⟩ := takeFree_room hj' hread (by omega)
    (by rw [hkeep a ha]; omega) (by rw [hkeep a ha]; omega)
  generalize padTo (2 ^ j) (a + 16) = pad at hfit hmultiple htake hmem hnew ⊢
  rw [hkeep a ha] at hnew
  -- no other block has a word at the new header
  have hfar : ∀ c ∈ st.live.map Block.header ++ (pre ++ post),
      c ≠ a + pad ∧ c + 8 ≠ a + pad := by
    intro c hc
    obtain ⟨hc', hne⟩ := hrest c hc
    have hap := h.laid.apart_of_ne hc' ha hne
    have hcb := (h.laid.bounds c hc').2.1
    unfold BlocksApart Apart at hap
    omega
  have hsize : ∀ c ∈ st.live.map Block.header ++ (pre ++ post), hp'.size c = st.heap.size c :=
    fun c hc => (hmem c (hfar c hc).1).trans (hkeep c (hrest c hc).1)
  have hchain := h.chain
  rw [hfreed] at hchain
  refine ⟨hp', htake, ?_, ?_, ?_⟩
  · exact h.laid.shrink hperm (List.Perm.refl _) hmultiple (by omega) hoff' hsize hnew
  · show Chain hp'.nextFree hp'.freeList (pre ++ post)
    rw [hlist]
    exact (unlink_chain hchain).congr fun c hc => hmem _ (hfar c (List.mem_append_right _ hc)).2
  · intro k hk
    obtain rfl | hk := List.mem_cons.mp hk
    · show size + 16 ≤ hp'.size (a + pad)
      rw [hnew]
      omega
    · rw [hsize k.header (List.mem_append_left _ (List.mem_map_of_mem hk))]
      exact h.room k hk

end Take

/-! ### Carving a block from the tail -/

section Tail
variable {b : Buffer} {fuel : ℕ} {st : HeapRun} {j size : ℕ}

theorem headerPadding_ge (hj : 3 ≤ j) (hj' : j < 64) (a : ℕ) : 8 ≤ headerPadding a (2 ^ j) := by
  have hle : 2 ^ 3 ≤ 2 ^ j := Nat.pow_le_pow_right (by decide) hj
  have hle' : 2 ^ j ≤ 2 ^ 63 := Nat.pow_le_pow_right (by decide) (Nat.le_of_lt_succ hj')
  rw [headerPadding_eq]
  split_ifs with h
  · rw [u64_of_lt (by omega)]
    omega
  · omega

/- A block behind all others. -/
theorem RoomInv.carve (h : RoomInv b st) (hj : 3 ≤ j) (hj' : j < 64)
    (hroom : st.heap.offset + tailPadding b st.heap (2 ^ j) + (size + 16) ≤ allocatorSize) :
    RoomInv b ⟨({st.heap with
        offset := st.heap.offset + tailPadding b st.heap (2 ^ j) + (size + 16)} : Heap).setSize
          (b.base + st.heap.offset + tailPadding b st.heap (2 ^ j)) (size + 16),
      ⟨b.base + st.heap.offset + tailPadding b st.heap (2 ^ j), size⟩ :: st.live, st.freed⟩ := by
  have hdvd : 2 ^ j ∣ b.base + st.heap.offset + tailPadding b st.heap (2 ^ j) :=
    dvd_add_headerPadding (Nat.le_of_lt hj') _
  have hge : 8 ≤ tailPadding b st.heap (2 ^ j) := headerPadding_ge hj hj' _
  generalize tailPadding b st.heap (2 ^ j) = pad at hroom hdvd hge ⊢
  have hbehind : ∀ c ∈ st.headers, c + st.heap.size c ≤ b.base + st.heap.offset + pad ∧
      c + 8 < b.base + st.heap.offset + pad := fun c hc => by
    have hb := h.laid.bounds c hc
    omega
  have hsize : ∀ c ∈ st.headers, (({st.heap with
      offset := st.heap.offset + pad + (size + 16)} : Heap).setSize
        (b.base + st.heap.offset + pad) (size + 16)).size c = st.heap.size c :=
    fun c hc => Function.update_of_ne (by have hlt := (hbehind c hc).2; omega) _ _
  have hnew : (({st.heap with offset := st.heap.offset + pad + (size + 16)} : Heap).setSize
      (b.base + st.heap.offset + pad) (size + 16)).size (b.base + st.heap.offset + pad) =
        size + 16 := Function.update_self ..
  refine ⟨⟨hroom, ?_, ?_, ?_, ?_⟩, ?_, ?_⟩
  · have hcount := h.laid.count
    show 24 * (st.headers.length + 1) ≤ st.heap.offset + pad + (size + 16)
    omega
  · intro c hc
    obtain rfl | hc := List.mem_cons.mp hc
    · exact (pow_dvd_pow (m := 3) 2 hj).trans hdvd
    · exact h.laid.aligned c hc
  · intro c hc
    show b.base + 8 ≤ c ∧ _ ∧ c + _ ≤ b.base + (st.heap.offset + pad + (size + 16))
    obtain rfl | hc := List.mem_cons.mp hc
    · rw [hnew]
      dsimp only
      omega
    · rw [hsize c hc]
      have hb := h.laid.bounds c hc
      omega
  · refine List.pairwise_cons.mpr ⟨fun c hc => Or.inr ?_, ?_⟩
    · rw [hsize c hc]
      exact (hbehind c hc).1
    · refine h.laid.apart.imp_of_mem fun {c d} hc hd hap => ?_
      unfold BlocksApart at hap ⊢
      rw [hsize c hc, hsize d hd]
      exact hap
  · refine h.chain.congr fun c hc => ?_
    have hlt := (hbehind c (RoomInv.freed_mem hc)).2
    exact Function.update_of_ne (Nat.ne_of_lt hlt) _ _
  · intro k hk
    obtain rfl | hk := List.mem_cons.mp hk
    · exact hnew.ge
    · rw [hsize k.header (RoomInv.live_mem hk)]
      exact h.room k hk

/- The owners' writes stay inside their payloads, away from every header. -/
theorem RoomInv.write (h : RoomInv b st) (value : ℕ → ℕ) :
    RoomInv b {st with heap := {st.heap with
      mem := fun a => if ∃ k ∈ st.live, k.ptr ≤ a ∧ a < k.stop then value a else st.heap.mem a}} := by
  have hkeep : ∀ c ∈ st.headers, ∀ a, c ≤ a → a < c + 16 →
      ¬∃ k ∈ st.live, k.ptr ≤ a ∧ a < k.stop := by
    rintro c hc a hlo hhi ⟨k, hk, hptr, hstop⟩
    have hroom := h.room k hk
    have hb := (h.laid.bounds c hc).2.1
    unfold Block.stop Block.ptr headerSize at *
    by_cases heq : c = k.header
    · omega
    · have hap := h.laid.apart_of_ne hc (RoomInv.live_mem hk) heq
      unfold BlocksApart Apart at hap
      omega
  have hsize : ∀ c ∈ st.headers, (if ∃ k ∈ st.live, k.ptr ≤ c ∧ c < k.stop then value c
      else st.heap.mem c) = st.heap.mem c := fun c hc => if_neg (hkeep c hc c le_rfl (by omega))
  refine ⟨h.laid.frame rfl hsize (List.Perm.refl _), ?_, fun k hk => ?_⟩
  · refine h.chain.congr fun c hc => ?_
    exact if_neg (hkeep c (RoomInv.freed_mem hc) (c + 8) (by omega) (by omega))
  · exact (h.room k hk).trans_eq (hsize k.header (RoomInv.live_mem hk)).symm

end Tail

/-! ### Requests -/

section Requests
variable {b : Buffer} {fuel : ℕ} {st : HeapRun} {alignment size : UInt64}

theorem max_pow (k : ℕ) : max (2 ^ k) 8 = 2 ^ max k 3 := by
  rw [← clamp_pow]
  split_ifs with h
  · exact Nat.max_eq_right (Nat.le_of_lt h)
  · exact Nat.max_eq_left (Nat.le_of_not_lt h)

/- The memory in a free block lies apart from all live blocks. -/
theorem RoomInv.hasRoom_free (h : RoomInv b st) {a p size : ℕ} (ha : a ∈ st.freed) (hlo : a ≤ p)
    (hhi : p + size ≤ a + st.heap.size a) : HasRoom b st p size := by
  have hb := h.laid.bounds a (RoomInv.freed_mem ha)
  have hoff := h.laid.offset_le
  refine ⟨by omega, fun k hk => ?_⟩
  have hne : k.header ≠ a :=
    (List.nodup_append.mp h.nodup).2.2 k.header (List.mem_map_of_mem hk) a ha
  have hap := h.laid.apart_of_ne (RoomInv.live_mem hk) (RoomInv.freed_mem ha) hne
  have hroom := h.room k hk
  unfold BlocksApart Apart at hap
  unfold Apart Block.stop Block.ptr headerSize
  omega

/- So does the memory behind all blocks. -/
theorem RoomInv.hasRoom_tail (h : RoomInv b st) {p size : ℕ} (hlo : b.base + st.heap.offset ≤ p)
    (hhi : p + size ≤ b.base + allocatorSize) : HasRoom b st p size := by
  refine ⟨by omega, fun k hk => ?_⟩
  have hb := h.laid.bounds k.header (RoomInv.live_mem hk)
  have hroom := h.room k hk
  unfold Apart Block.stop Block.ptr headerSize
  omega

/- What the search finds is what the recorded list says. -/
theorem search_cases (h : RoomInv b st) (hfuel : 21845 < fuel) (total : ℕ) :
    (∃ pre a post, st.freed = pre ++ a :: post ∧ st.heap.read (linkTo .head pre) = a ∧
      findFit st.heap total fuel .head = some (some (linkTo .head pre)) ∧
      st.freed.find? (fun h => total ≤ st.heap.size h) = some a ∧
      st.freed.eraseP (fun h => total ≤ st.heap.size h) = pre ++ post) ∨
    (findFit st.heap total fuel .head = some none ∧
      st.freed.find? (fun h => total ≤ st.heap.size h) = none ∧
      st.freed.eraseP (fun h => total ≤ st.heap.size h) = st.freed) := by
  have hlen : st.freed.length < fuel := by
    have hle := h.laid.length_le
    rw [HeapRun.headers, List.length_append] at hle
    omega
  have hchain : Chain st.heap.nextFree (st.heap.read .head) st.freed := h.chain
  obtain ⟨pre, a, post, hfreed, hfit, hfind, hread, hpre⟩ | ⟨hnone, hsmall⟩ :=
    findFit_spec st.heap total fuel hchain hlen
  · have hskip : ∀ c ∈ pre, ¬ decide (total ≤ st.heap.size c) = true := fun c hc => by
      rw [decide_eq_true_iff]
      exact Nat.not_le.mpr (hpre c hc)
    refine Or.inl ⟨pre, a, post, hfreed, hread, hfind, ?_, ?_⟩
    · refine List.find?_eq_some_iff_append.mpr ⟨decide_eq_true hfit, pre, post, hfreed, fun c hc => ?_⟩
      rw [Bool.not_eq_true', Bool.eq_false_iff]
      exact hskip c hc
    · have hfirst : (a :: post).eraseP (fun h => total ≤ st.heap.size h) = post :=
        List.eraseP_cons_of_pos (p := fun h => decide (total ≤ st.heap.size h))
          (decide_eq_true hfit)
      rw [hfreed, List.eraseP_append_right _ hskip, hfirst]
  · have hskip : ∀ c ∈ st.freed, ¬ decide (total ≤ st.heap.size c) = true := fun c hc => by
      rw [decide_eq_true_iff]
      exact Nat.not_le.mpr (hsmall c hc)
    exact Or.inr ⟨hnone, List.find?_eq_none.mpr hskip, List.eraseP_of_forall_not hskip⟩

/- A request whose room is enough is met, and keeps the invariant. -/
theorem RoomInv.alloc (h : RoomInv b st) (hfuel : 21845 < fuel)
    (hpow : PowerRequests st (.alloc alignment size))
    (hroom : RoomEnough b st (.alloc alignment size)) :
    RequestMet b fuel st (.alloc alignment size) ∧
      ∀ st', allocStep b fuel st (.alloc alignment size) = some st' → RoomInv b st' := by
  obtain ⟨k, hk⟩ := hpow
  have hj := exponent_lt hk
  have hj3 : 3 ≤ max k 3 := Nat.le_max_right k 3
  have hoff := h.laid.offset_le
  have hsmall : allocatorSize = 524288 := rfl
  simp only [RoomEnough, hk, max_pow] at hroom
  simp only [RequestMet, allocStep, hk]
  generalize size.toNat = size at hroom ⊢
  obtain ⟨pre, a, post, hfreed, hread, hfind, hfirst, herase⟩ | ⟨hfind, hfirst, herase⟩ :=
    search_cases h hfuel (u64 (size + headerSize))
  · rw [hfirst] at hroom
    have ha : a ∈ st.freed := hfreed ▸ List.mem_append_right _ (List.mem_cons_self ..)
    obtain ⟨hp', htake, hinv⟩ := h.take hj3 (Nat.le_of_lt hj) hfreed hread hroom
    rw [alignedAlloc_take hfind, htake]
    refine ⟨⟨_, _, rfl, fun _ => ?_, fun h0 => absurd h0 (Nat.succ_ne_zero _)⟩, ?_⟩
    · exact h.hasRoom_free ha (by omega) (by dsimp only at hroom; omega)
    · intro st' hst
      rw [Option.map_some, if_neg (Nat.succ_ne_zero _), herase] at hst
      cases hst
      exact hinv
  · rw [hfirst] at hroom
    rw [alignedAlloc_carve hfind]
    obtain hfull | hfits := Nat.lt_or_ge allocatorSize
      (u64 (st.heap.offset + tailPadding b st.heap (2 ^ max k 3) + u64 (size + headerSize)))
    · rw [carve_full hoff hfull]
      refine ⟨⟨0, st.heap, rfl, fun h0 => absurd rfl h0, fun _ => rfl⟩, fun st' hst => ?_⟩
      cases hst
      exact h
    · have hend := hroom hfits
      have htotal : u64 (size + headerSize) = size + 16 := u64_of_lt (by unfold headerSize; omega)
      rw [htotal, carve_room hoff (Nat.le_add_left 16 size) hend]
      refine ⟨⟨_, _, rfl, fun _ => ?_, fun h0 => absurd h0 (Nat.succ_ne_zero _)⟩, ?_⟩
      · exact h.hasRoom_tail (by omega) (by omega)
      · intro st' hst
        rw [Option.map_some, if_neg (Nat.succ_ne_zero _), ← htotal, herase] at hst
        cases hst
        rw [htotal]
        exact h.carve hj3 hj hend

/- Only `NULL` or a live pointer is freed. -/
theorem RoomInv.free_step (h : RoomInv b st) {ptr : ℕ} (hok : HeapOk st (.free ptr)) {st' : HeapRun}
    (hst : allocStep b fuel st (.free ptr) = some st') : RoomInv b st' := by
  obtain rfl | ⟨k, hk, rfl⟩ := hok
  · cases hst
    exact h
  · have hsub : k.ptr - headerSize = k.header := Nat.add_sub_cancel k.header 16
    have hptr : ¬ k.ptr = 0 := Nat.succ_ne_zero _
    rw [allocStep, heapStep, if_neg hptr, hsub] at hst
    cases hst
    exact h.free hk

theorem RoomInv.step (h : RoomInv b st) (hfuel : 21845 < fuel) {op : AllocOp}
    (hop : PowerRequests st op ∧ RoomEnough b st op) :
    RequestMet b fuel st op ∧ ∀ st', allocStep b fuel st op = some st' → RoomInv b st' := by
  cases op with
  | alloc alignment size => exact h.alloc hfuel hop.1 hop.2
  | free ptr => exact ⟨trivial, fun st' hst => h.free_step hop.1 hst⟩
  | write value =>
    refine ⟨trivial, fun st' hst => ?_⟩
    cases hst
    exact h.write value

theorem heapInit_roomInv (b : Buffer) (mem : ℕ → ℕ) : RoomInv b (heapInit mem) :=
  ⟨⟨Nat.zero_le _, le_rfl, fun _ hk => absurd hk List.not_mem_nil,
    fun _ hk => absurd hk List.not_mem_nil, List.Pairwise.nil⟩, rfl,
    fun _ hk => absurd hk List.not_mem_nil⟩

end Requests

/-- From the initial heap on, in every sequence of requests of any size for a power of
two, of valid frees and of writes to live blocks: if the room is enough all along,
every request is met. A search bounded by 21846 rounds is enough. -/
theorem requests_met (b : Buffer) (fuel : ℕ) (hfuel : 21845 < fuel) (mem : ℕ → ℕ)
    (ops : List AllocOp)
    (hok : Run.Guarded (allocStep b fuel) (fun st op => PowerRequests st op ∧ RoomEnough b st op)
      (heapInit mem) ops) :
    Run.Guarded (allocStep b fuel) (RequestMet b fuel) (heapInit mem) ops := by
  have hstep : ∀ st op, RoomInv b st → PowerRequests st op ∧ RoomEnough b st op →
      RequestMet b fuel st op ∧ ∀ st', allocStep b fuel st op = some st' → RoomInv b st' :=
    fun st op h hop => h.step hfuel hop
  exact Run.Guarded.of_invariant hstep (heapInit_roomInv b mem) hok

/- A test for the conditions on a run. -/
def isRoomyRequest (b : Buffer) (st : HeapRun) : AllocOp → Bool
  | .alloc alignment size =>
    alignment.toNat = 2 ^ alignment.toNat.log2 &&
      match st.freed.find? fun h => u64 (size.toNat + headerSize) ≤ st.heap.size h with
      | some h => padTo (max alignment.toNat 8) (h + 16) + (size.toNat + 16) ≤ st.heap.size h
      | none => st.heap.offset + tailPadding b st.heap (max alignment.toNat 8) + (size.toNat + 16) ≤
          allocatorSize
  | op => isShortRequest st op

theorem roomEnough_of_test {b : Buffer} (st : HeapRun) (op : AllocOp)
    (h : isRoomyRequest b st op = true) : PowerRequests st op ∧ RoomEnough b st op := by
  cases op with
  | alloc alignment size =>
    rw [isRoomyRequest, Bool.and_eq_true, decide_eq_true_iff] at h
    refine ⟨⟨_, h.1⟩, ?_⟩
    have hroom := h.2
    simp only [RoomEnough]
    split at hroom
    · exact of_decide_eq_true hroom
    · exact fun _ => of_decide_eq_true hroom
  | free ptr => exact ⟨shortRequests_of_test st (.free ptr) h, trivial⟩
  | write value => exact ⟨trivial, trivial⟩

/- Two blocks; the first is freed and serves a request with alignment 64, and the tail serves
one after it. -/
def reusedAndTail : List AllocOp :=
  [.alloc 16 100, .alloc 16 32, .write fun a => a % 256, .free 4144, .alloc 64 20, .alloc 64 100]

theorem requests_met_reused :
    Run.Guarded (allocStep lowBuffer 21846) (RequestMet lowBuffer 21846) (heapInit fun _ => 0)
      reusedAndTail ∧
    (Run.exec (allocStep lowBuffer 21846) (heapInit fun _ => 0) reusedAndTail).map
      (fun st => st.live.map fun k => (k.ptr, k.size)) = some [(4368, 100), (4160, 20), (4288, 32)] :=
  ⟨requests_met lowBuffer 21846 (by decide) (fun _ => 0) reusedAndTail
    (Run.guarded_of_test roomEnough_of_test (by decide +kernel)), by decide +kernel⟩

/- The size and the header come to 15 bytes, and memory of the size is handed out. -/
theorem large_request_wraps :
    ¬ ∀ ops : List AllocOp, Run.Guarded (allocStep lowBuffer 21846) PowerRequests
        (heapInit fun _ => 0) ops →
      Run.Guarded (allocStep lowBuffer 21846) (RequestMet lowBuffer 21846)
        (heapInit fun _ => 0) ops := by
  intro h
  have hrun := h [.alloc 16 0xFFFFFFFFFFFFFFFF] ⟨⟨4, rfl⟩, fun _ _ => trivial⟩
  obtain ⟨p, hp, halloc, hroom, -⟩ := hrun.1
  have hptr : (alignedAlloc lowBuffer 21846 (heapInit fun _ => 0).heap 16
      18446744073709551615).map Prod.fst = some 4144 := by decide
  have hsame := (congrArg (Option.map Prod.fst) halloc).symm.trans hptr
  cases hsame
  exact absurd (hroom (by decide)).inside.2 (by decide)

end CasseOS.Mem
