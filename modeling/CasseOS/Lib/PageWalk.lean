import CasseOS.Lib.Bytes

/-! # Page tables of four levels

An address is translated by nine of its bits at a time: they select an entry of
512, which holds the next table or, on the lower levels, a page. -/

namespace CasseOS.PageWalk
open Bytes

/- The entries have 8 bytes each. -/
def entryAt (mem : Memory) (table i : ℕ) : ℕ := load 8 mem (table + 8 * i)

def present (e : ℕ) : Bool := e % 2 = 1

/- The bit that makes an entry one of a page where it could be one of a table. -/
def isPage (e : ℕ) : Bool := e / 2 ^ 7 % 2 = 1

/- How much an entry of the level stands for. -/
def span (level : ℕ) : ℕ := 2 ^ (12 + 9 * level)

def index (level va : ℕ) : ℕ := va / span level % 512

/- The address in an entry has the bits up to 51. -/
def frame (level e : ℕ) : ℕ := e % 2 ^ 52 / span level * span level

/- Level 3 has no pages: there the bit is reserved. -/
def walk (mem : Memory) : ℕ → ℕ → ℕ → Option ℕ
  | 0, table, va =>
    let e := entryAt mem table (index 0 va)
    if present e then some (frame 0 e + va % span 0) else none
  | level + 1, table, va =>
    let e := entryAt mem table (index (level + 1) va)
    if present e then
      if isPage e then
        if level < 2 then some (frame (level + 1) e + va % span (level + 1)) else none
      else walk mem level (frame 0 e) va
    else none

def translate (mem : Memory) (cr3 va : ℕ) : Option ℕ := walk mem 3 (frame 0 cr3) va

/-! ### Entries -/

variable {mem : Memory} {level table va next flags : ℕ}

theorem span_zero : span 0 = 4096 := rfl

theorem index_lt (level va : ℕ) : index level va < 512 := Nat.mod_lt _ (by decide)

/- The address that an entry was made of. -/
theorem frame_add (hnext : 4096 ∣ next) (hlt : next + 4096 ≤ 2 ^ 52) (hflags : flags < 4096) :
    frame 0 (next + flags) = next := by
  obtain ⟨k, rfl⟩ := hnext
  rw [frame, span_zero, Nat.mod_eq_of_lt (by omega)]
  omega

theorem walk_absent (h : present (entryAt mem table (index level va)) = false) :
    walk mem level table va = none := by
  cases level with
  | zero => simp [walk, h]
  | succ level => simp [walk, h]

theorem walk_table (h : entryAt mem table (index (level + 1) va) = next + flags)
    (hnext : 4096 ∣ next) (hlt : next + 4096 ≤ 2 ^ 52) (hodd : flags % 2 = 1) (hflags : flags < 128) :
    walk mem (level + 1) table va = walk mem level next va := by
  have hframe := frame_add hnext hlt (by omega : flags < 4096)
  obtain ⟨k, rfl⟩ := hnext
  have hpresent : present (4096 * k + flags) = true := decide_eq_true (by omega)
  have htable : isPage (4096 * k + flags) = false := decide_eq_false (by omega)
  simp [walk, h, hpresent, htable, hframe]

theorem walk_page (h : entryAt mem table (index 0 va) = next + flags) (hnext : 4096 ∣ next)
    (hlt : next + 4096 ≤ 2 ^ 52) (hodd : flags % 2 = 1) (hflags : flags < 4096) :
    walk mem 0 table va = some (next + va % 4096) := by
  have hframe := frame_add hnext hlt hflags
  obtain ⟨k, rfl⟩ := hnext
  have hpresent : present (4096 * k + flags) = true := decide_eq_true (by omega)
  simp [walk, h, hpresent, hframe, span_zero]

/-! ### Tables -/

/- A table with one entry, its first. -/
theorem walk_first (hfirst : entryAt mem table 0 = next + flags)
    (hrest : ∀ i, 0 < i → i < 512 → entryAt mem table i = 0) (hnext : 4096 ∣ next)
    (hlt : next + 4096 ≤ 2 ^ 52) (hodd : flags % 2 = 1) (hflags : flags < 128) (va : ℕ) :
    walk mem (level + 1) table va =
      if index (level + 1) va = 0 then walk mem level next va else none := by
  by_cases hzero : index (level + 1) va = 0
  · rw [if_pos hzero]
    exact walk_table (by rw [hzero, hfirst]) hnext hlt hodd hflags
  · rw [if_neg hzero]
    refine walk_absent ?_
    rw [hrest _ (Nat.pos_of_ne_zero hzero) (index_lt ..)]
    rfl

/- A table of pages that follow one another. -/
theorem walk_pages {base : ℕ} (h : ∀ i < 512, entryAt mem table i = base + 4096 * i + flags)
    (hbase : 4096 ∣ base) (hlt : base + 2 ^ 21 ≤ 2 ^ 52) (hodd : flags % 2 = 1)
    (hflags : flags < 4096) (va : ℕ) :
    walk mem 0 table va = some (base + va % 2 ^ 21) := by
  have hi := index_lt 0 va
  have hindex : index 0 va = va / 4096 % 512 := rfl
  have hsplit : va % (4096 * 512) = va % 4096 + 4096 * (va / 4096 % 512) := Nat.mod_mul
  have hsize : 2 ^ 21 = 4096 * 512 := by norm_num
  rw [walk_page (h _ hi) (Nat.dvd_add hbase (Nat.dvd_mul_right 4096 _)) (by omega) hodd hflags, hsize,
    hsplit, hindex, Option.some.injEq]
  omega

end CasseOS.PageWalk
