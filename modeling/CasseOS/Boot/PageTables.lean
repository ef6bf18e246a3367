import CasseOS.Boot.Protected

/-! # The page tables

What the stores of `paging_set_up` make of a memory. Each of them writes the lower
half of an entry only: the upper halves are what they were. -/

namespace CasseOS.Boot
open Bytes PageWalk

/- The stores (`kernel-long-mode-transition.asm:16-32`). -/
def pageTables (mem : Memory) : Memory :=
  storeEach 4 0x4000 8 (fun i => 0x1000 * i + 3) 512
    (Bytes.store 4 (Bytes.store 4 (Bytes.store 4 mem 0x1000 0x2003) 0x2000 0x3003) 0x3000 0x4003)

/- Every address below 2 MiB is mapped to itself, and no other is mapped. -/
def IdentityMap (mem : Memory) (cr3 : ℕ) : Prop :=
  ∀ va < 2 ^ 48, PageWalk.translate mem cr3 va = if va < 2 ^ 21 then some va else none

theorem pageTables_other {mem : Memory} {b : ℕ} (h : b < 0x1000 ∨ 0x5000 ≤ b) :
    pageTables mem b = mem b := by
  unfold pageTables
  rw [storeEach_other fun i hi => by omega, store_other (by omega), store_other (by omega),
    store_other (by omega)]

/- The entries of the last table; the upper halves are not written. -/
theorem lower_table (mem : Memory) {i : ℕ} (hi : i < 512) : entryAt (pageTables mem) 0x4000 i =
    4096 * i + 3 + 256 ^ 4 * load 4 mem (0x4000 + 8 * i + 4) := by
  have hupper : load 4 (pageTables mem) (0x4000 + 8 * i + 4) = load 4 mem (0x4000 + 8 * i + 4) := by
    unfold pageTables
    rw [load_storeEach_other fun j hj => by omega, load_store_other (by omega),
      load_store_other (by omega), load_store_other (by omega)]
  have hlower : load 4 (pageTables mem) (0x4000 + 8 * i) = 4096 * i + 3 := by
    unfold pageTables
    rw [load_storeEach (by omega) hi, Nat.mod_eq_of_lt (by omega)]
  rw [entryAt, ← hupper, ← hlower]
  exact load_add 4 4 _ _

section Tables
variable {mem : Memory} (hzero : ∀ a, 0x1000 ≤ a → a < 0x4FFC → mem a = 0)
include hzero

/- The three upper tables. -/
theorem upper_tables (table next : ℕ) (htable : (table, next) ∈
    [(0x1000, 0x2000), (0x2000, 0x3000), (0x3000, 0x4000)]) :
    entryAt (pageTables mem) table 0 = next + 3 ∧
      ∀ i, 0 < i → i < 512 → entryAt (pageTables mem) table i = 0 := by
  have hhalves : ∀ b, b + 4 ≤ 0x4000 → load 4 (pageTables mem) b =
      load 4 (Bytes.store 4 (Bytes.store 4 (Bytes.store 4 mem 0x1000 0x2003) 0x2000 0x3003) 0x3000 0x4003) b :=
    fun b hb => load_storeEach_other fun i hi => by omega
  have hempty : ∀ b, 0x1000 ≤ b → b + 4 ≤ 0x4000 → b ≠ 0x1000 → b ≠ 0x2000 → b ≠ 0x3000 → 4 ∣ b →
      load 4 (pageTables mem) b = 0 := by
    rintro b hlow hhigh h1 h2 h3 ⟨k, rfl⟩
    rw [hhalves _ hhigh, load_store_other (by omega), load_store_other (by omega),
      load_store_other (by omega)]
    exact load_zero fun i hi => hzero _ (by omega) (by omega)
  have hfirst : load 4 (pageTables mem) table = next + 3 := by
    simp only [List.mem_cons, Prod.mk.injEq, List.not_mem_nil, or_false] at htable
    rcases htable with ⟨rfl, rfl⟩ | ⟨rfl, rfl⟩ | ⟨rfl, rfl⟩
    · rw [hhalves _ (by omega), load_store_other (by omega), load_store_other (by omega), load_store]
      rfl
    · rw [hhalves _ (by omega), load_store_other (by omega), load_store]
      rfl
    · rw [hhalves _ (by omega), load_store]
      rfl
  have hrange : table = 0x1000 ∨ table = 0x2000 ∨ table = 0x3000 := by
    simp only [List.mem_cons, Prod.mk.injEq, List.not_mem_nil, or_false] at htable
    omega
  have hsplit : ∀ a, load 8 (pageTables mem) a =
      load 4 (pageTables mem) a + 256 ^ 4 * load 4 (pageTables mem) (a + 4) :=
    load_add 4 4 (pageTables mem)
  constructor
  · rw [entryAt, Nat.mul_zero, Nat.add_zero, hsplit, hfirst,
      hempty _ (by omega) (by omega) (by omega) (by omega) (by omega) (by omega)]
    omega
  · intro i hpos hi
    rw [entryAt, hsplit, hempty _ (by omega) (by omega) (by omega) (by omega) (by omega) (by omega),
      hempty _ (by omega) (by omega) (by omega) (by omega) (by omega) (by omega), Nat.mul_zero]

/- The walk gets to the last table for the first 2 MiB. -/
theorem translate_pageTables {va : ℕ} (hva : va < 2 ^ 48) :
    PageWalk.translate (pageTables mem) 0x1000 va =
      if va < 2 ^ 21 then walk (pageTables mem) 0 0x4000 va else none := by
  obtain ⟨hpml4, hpml4'⟩ := upper_tables hzero 0x1000 0x2000 (by simp)
  obtain ⟨hpdpt, hpdpt'⟩ := upper_tables hzero 0x2000 0x3000 (by simp)
  obtain ⟨hpdt, hpdt'⟩ := upper_tables hzero 0x3000 0x4000 (by simp)
  have hframe : frame 0 0x1000 = 0x1000 := rfl
  rw [PageWalk.translate, hframe,
    walk_first hpml4 hpml4' (by decide) (by decide) rfl (by decide),
    walk_first hpdpt hpdpt' (by decide) (by decide) rfl (by decide),
    walk_first hpdt hpdt' (by decide) (by decide) rfl (by decide)]
  have hthree : index 3 va = va / 2 ^ 39 % 512 := rfl
  have htwo : index 2 va = va / 2 ^ 30 % 512 := rfl
  have hone : index 1 va = va / 2 ^ 21 % 512 := rfl
  rw [hthree, htwo, hone]
  by_cases hlow : va < 2 ^ 21
  · rw [if_pos hlow, if_pos (by omega), if_pos (by omega), if_pos (by omega)]
  · have hupper : va / 2 ^ 39 % 512 ≠ 0 ∨ va / 2 ^ 30 % 512 ≠ 0 ∨ va / 2 ^ 21 % 512 ≠ 0 := by omega
    rw [if_neg hlow]
    rcases hupper with h | h | h
    · rw [if_neg h]
    · rw [if_neg h, ite_self]
    · rw [if_neg h, ite_self, ite_self]

/- With the upper half of the last entry zero, too, the 2 MiB are mapped to
themselves. -/
theorem identityMap_pageTables (hlast : load 4 mem 0x4FFC = 0) :
    IdentityMap (pageTables mem) 0x1000 := by
  have hpages : ∀ i < 512, entryAt (pageTables mem) 0x4000 i = 0 + 4096 * i + 3 := by
    intro i hi
    have hupper : load 4 mem (0x4000 + 8 * i + 4) = 0 := by
      rcases Nat.lt_or_ge i 511 with hlt | hge
      · exact load_zero fun j hj => hzero _ (by omega) (by omega)
      · have h511 : i = 511 := by omega
        rw [h511]
        exact hlast
    rw [lower_table mem hi, hupper]
    omega
  intro va hva
  rw [translate_pageTables hzero hva, walk_pages hpages (Nat.dvd_zero 4096) (by decide) rfl
    (by decide) va, Nat.zero_add]
  split
  · next hlow => rw [Nat.mod_eq_of_lt hlow]
  · rfl

/- What is left there of an address moves the last page. -/
theorem not_identityMap (hpos : 0 < load 4 mem 0x4FFC) (hlt : load 4 mem 0x4FFC < 2 ^ 20) :
    ¬IdentityMap (pageTables mem) 0x1000 := by
  intro hmap
  obtain ⟨left, hleft⟩ : ∃ left, load 4 mem 0x4FFC = left := ⟨_, rfl⟩
  rw [hleft] at hpos hlt
  have hindex : index 0 0x1FF000 = 511 := rfl
  have hentry : entryAt (pageTables mem) 0x4000 (index 0 0x1FF000) =
      (0x1FF000 + 256 ^ 4 * left) + 3 := by
    have hlast := lower_table mem (i := 511) (by decide)
    have haddr : 0x4000 + 8 * 511 + 4 = 0x4FFC := rfl
    rw [haddr, hleft] at hlast
    rw [hindex, hlast]
    omega
  have hwalk : PageWalk.translate (pageTables mem) 0x1000 0x1FF000 = some (0x1FF000 + 256 ^ 4 * left) := by
    have hoffset : 0x1FF000 % 4096 = 0 := rfl
    rw [translate_pageTables hzero (by decide), if_pos (by decide),
      walk_page hentry (by omega) (by omega) rfl (by decide), hoffset, Nat.add_zero]
  have hsame := hmap 0x1FF000 (by decide)
  rw [hwalk, if_pos (by decide), Option.some.injEq] at hsame
  omega

end Tables

end CasseOS.Boot
