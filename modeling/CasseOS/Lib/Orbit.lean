import Mathlib.Data.Int.ModEq
import Mathlib.Dynamics.PeriodicPts.Defs
import Mathlib.Tactic.LinearCombination

/-! # Walking the orbit of a point

`walk next first body` runs `body` at `first`, `next first`, ... and stops as
soon as the next point is `first` again. Nothing in the loop bounds the number
of rounds: it ends when the orbit closes. The walk is given a fuel, and it is
enough that the fuel reaches the period of the point. For steps of one length
around a ring the orbit is a class modulo a greatest common divisor. -/

namespace CasseOS.Orbit
variable {α S : Type*}

def walk [DecidableEq α] (next : α → α) (first : α) (body : α → S → S) : ℕ → α → S → Option S
  | 0, _, _ => none
  | fuel + 1, a, s =>
    if next a = first then some (body a s) else walk next first body fuel (next a) (body a s)

/- The rounds from the `k`-th point of the orbit on. The induction is on the fuel; the walk
stops exactly when `k + 1` reaches the minimal period. -/
theorem walk_from [DecidableEq α] {next : α → α} {first : α} (body : α → S → S) {fuel k : ℕ} (s : S)
    (hk : k < Function.minimalPeriod next first)
    (hfuel : Function.minimalPeriod next first ≤ k + fuel) :
    walk next first body fuel (next^[k] first) s =
      some ((List.range' k (Function.minimalPeriod next first - k)).foldl
        (fun s j => body (next^[j] first) s) s) := by
  induction fuel generalizing k s with
  | zero => omega
  | succ fuel ih =>
    have hsucc : next (next^[k] first) = next^[k + 1] first :=
      (Function.iterate_succ_apply' next k first).symm
    have hback : next^[k + 1] first = first ↔ Function.minimalPeriod next first ∣ k + 1 :=
      Function.isPeriodicPt_iff_minimalPeriod_dvd
    rw [walk, hsucc]
    by_cases hlast : k + 1 = Function.minimalPeriod next first
    · have hone : Function.minimalPeriod next first - k = 1 := by omega
      rw [if_pos (hback.mpr (dvd_of_eq hlast.symm)), hone]
      rfl
    · have hnot : ¬next^[k + 1] first = first := fun h =>
        hlast (Nat.le_antisymm hk (Nat.le_of_dvd (Nat.succ_pos k) (hback.mp h)))
      have hlen : Function.minimalPeriod next first - k =
          (Function.minimalPeriod next first - (k + 1)) + 1 := by omega
      rw [if_neg hnot, ih _ (by omega) (by omega), hlen, List.range'_succ, List.foldl_cons]

/- The walk ends and has run the body once at each point of the orbit, in order. -/
theorem walk_eq [DecidableEq α] {next : α → α} {first : α} (body : α → S → S) {fuel n : ℕ} (s : S)
    (hn : 0 < n) (hback : next^[n] first = first) (hfuel : n ≤ fuel) :
    walk next first body fuel first s =
      some ((List.range (Function.minimalPeriod next first)).foldl
        (fun s j => body (next^[j] first) s) s) := by
  have hper : Function.IsPeriodicPt next n first := hback
  have hpos : 0 < Function.minimalPeriod next first := hper.minimalPeriod_pos hn
  have hle : Function.minimalPeriod next first ≤ n := hper.minimalPeriod_le hn
  have h := walk_from body s hpos (by omega : _ ≤ 0 + fuel)
  rw [List.range_eq_range']
  exact h

/- The points a walk visits. -/
theorem walk_collect [DecidableEq α] {next : α → α} {first : α} {fuel n : ℕ} (hn : 0 < n)
    (hback : next^[n] first = first) (hfuel : n ≤ fuel) :
    walk next first (fun a l => l ++ [a]) fuel first [] =
      some ((List.range (Function.minimalPeriod next first)).map fun j => next^[j] first) := by
  rw [walk_eq _ [] hn hback hfuel, List.foldl_append_eq_append, List.nil_append,
    ← List.flatMap_def, List.map_eq_flatMap]

/- No point is visited twice. -/
theorem nodup_orbit (next : α → α) (first : α) :
    ((List.range (Function.minimalPeriod next first)).map fun j => next^[j] first).Nodup := by
  apply List.Nodup.map_on _ List.nodup_range
  intro j hj k hk heq
  exact Function.iterate_injOn_Iio_minimalPeriod (List.mem_range.mp hj) (List.mem_range.mp hk) heq

/- What is ever reached is met before the orbit closes. -/
theorem mem_orbit {next : α → α} {first a : α} {n : ℕ} (hn : 0 < n) (hback : next^[n] first = first) :
    a ∈ (List.range (Function.minimalPeriod next first)).map (fun j => next^[j] first) ↔
      ∃ k, next^[k] first = a := by
  have hper : Function.IsPeriodicPt next n first := hback
  rw [List.mem_map]
  constructor
  · rintro ⟨k, -, hk⟩
    exact ⟨k, hk⟩
  · rintro ⟨k, hk⟩
    refine ⟨k % Function.minimalPeriod next first,
      List.mem_range.mpr (Nat.mod_lt _ (hper.minimalPeriod_pos hn)), ?_⟩
    rw [Function.iterate_mod_minimalPeriod_eq, hk]

/- Steps of `i` modulo `n` reach what is congruent modulo their greatest common
divisor, and nothing else. -/
theorem exists_add_mul_mod {n a b i : ℕ} (hn : 0 < n) (hb : b < n) :
    (∃ k, (a + k * i) % n = b) ↔ a ≡ b [MOD Nat.gcd i n] := by
  constructor
  · rintro ⟨k, rfl⟩
    have hi : a + k * i ≡ a [MOD Nat.gcd i n] := by
      have hk : k * i ≡ 0 [MOD Nat.gcd i n] :=
        Nat.modEq_zero_iff_dvd.mpr (Dvd.dvd.mul_left (Nat.gcd_dvd_left i n) k)
      exact Nat.ModEq.add_left a hk
    exact hi.symm.trans ((Nat.mod_modEq (a + k * i) n).of_dvd (Nat.gcd_dvd_right i n)).symm
  · intro h
    obtain ⟨t, ht⟩ := Nat.modEq_iff_dvd.mp h
    -- The greatest common divisor is a combination; its factor of `i` is taken modulo `n`.
    obtain ⟨k, hk⟩ : ∃ k : ℕ, (k : ℤ) = Nat.gcdA i n * t % n :=
      ⟨(Nat.gcdA i n * t % n).toNat, Int.toNat_of_nonneg (Int.emod_nonneg _ (by omega))⟩
    have hkmod : (k : ℤ) ≡ Nat.gcdA i n * t [ZMOD n] := by
      rw [hk]
      exact Int.mod_modEq _ _
    have hcomb : (b : ℤ) = a + Nat.gcdA i n * t * i + n * (Nat.gcdB i n * t) := by
      rw [Nat.gcd_eq_gcd_ab] at ht
      linear_combination ht
    have hmod : ((a + k * i : ℕ) : ℤ) ≡ b [ZMOD n] := by
      rw [hcomb]
      push_cast
      refine ((hkmod.mul_right (i : ℤ)).add_left (a : ℤ)).trans ?_
      exact Int.modEq_iff_dvd.mpr ⟨Nat.gcdB i n * t, add_sub_cancel_left _ _⟩
    have hnat : (a + k * i) % n = b % n := Int.natCast_modEq_iff.mp hmod
    exact ⟨k, hnat.trans (Nat.mod_eq_of_lt hb)⟩

end CasseOS.Orbit
