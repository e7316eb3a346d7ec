/-
# BtcRig.Theory.Tiling — a range cut into shares of equal size

Share `g` of `[0, n)` cut into pieces of `k` is `tile k n g`: it starts at `g * k`,
is shorter at the end and empty behind it.  `flatMap_tile` puts the shares together
again.  The number of shares is `n / k` rounded up, and a launch rounds it up once
more to whole groups; `ceilDiv_le_iff` and `roundUp_le_iff` turn a bound on the
rounded numbers into a bound on the number itself.
-/
import Mathlib

namespace BtcRig.Theory.Tiling

set_option autoImplicit false

def tile (k n g : Nat) : List Nat := (List.range (min k (n - g * k))).map (g * k + ·)

theorem flatMap_tile (k n w : Nat) : (List.range w).flatMap (tile k n) = List.range (min n (w * k)) := by
  induction w with
  | zero => simp
  | succ w ih =>
      have next : min n ((w + 1) * k) = min n (w * k) + min k (n - w * k) := by
        rw [Nat.succ_mul]
        omega
      rw [List.range_succ, List.flatMap_append, ih, next, List.range_add]
      simp only [List.flatMap_cons, List.flatMap_nil, List.append_nil, tile]
      by_cases reached : w * k ≤ n
      · rw [Nat.min_eq_right reached]
      · rw [show n - w * k = 0 by omega, Nat.min_zero, List.range_zero, List.map_nil, List.map_nil]

/-- Enough shares make up the whole range, also with empty ones at the end. -/
theorem flatMap_tile_all {k n w : Nat} (enough : n ≤ w * k) :
    (List.range w).flatMap (tile k n) = List.range n := by
  rw [flatMap_tile, Nat.min_eq_left enough]

/-- Numbers counted group by group. -/
theorem flatMap_groups (groups size : Nat) :
    (List.range groups).flatMap (fun c => (List.range size).map (c * size + ·)) =
      List.range (groups * size) := by
  induction groups with
  | zero => simp
  | succ groups ih =>
      rw [List.range_succ, List.flatMap_append, ih, Nat.succ_mul, List.range_add]
      simp

theorem mem_tile {k n g x : Nat} : x ∈ tile k n g ↔ g * k ≤ x ∧ x < g * k + k ∧ x < n := by
  simp only [tile, List.mem_map, List.mem_range]
  constructor
  · rintro ⟨i, small, rfl⟩
    omega
  · rintro ⟨low, high, inside⟩
    exact ⟨x - g * k, by omega, by omega⟩

theorem filter_range_lt (k m : Nat) :
    ((List.range k).filter fun i => i < m) = List.range (min k m) := by
  induction k with
  | zero => simp
  | succ k ih =>
      rw [List.range_succ, List.filter_append, ih]
      by_cases small : k < m
      · rw [Nat.min_eq_left (by omega), Nat.min_eq_left (by omega), List.range_succ]
        simp [small]
      · rw [Nat.min_eq_right (by omega), Nat.min_eq_right (by omega)]
        simp [small]

/-! ## Rounding up -/

theorem ceilDiv_le_iff {n k : Nat} (positive : 0 < k) (x : Nat) :
    (n + k - 1) / k ≤ x ↔ n ≤ k * x := by
  rw [← Nat.lt_succ_iff, Nat.div_lt_iff_lt_mul positive, Nat.succ_mul, Nat.mul_comm x k]
  omega

theorem le_ceilDiv_mul {n k : Nat} (positive : 0 < k) : n ≤ (n + k - 1) / k * k := by
  rw [Nat.mul_comm]
  exact (ceilDiv_le_iff positive _).mp (le_refl _)

/-- The last of the rounded-up shares starts inside the range. -/
theorem ceilDiv_mul_lt {n k : Nat} (positive : 0 < k) : (n + k - 1) / k * k < n + k := by
  have := Nat.div_mul_le_self (n + k - 1) k
  omega

theorem roundUp_le_iff {w t : Nat} (positive : 0 < t) (bound : Nat) :
    (w + t - 1) / t * t ≤ bound ↔ w ≤ t * (bound / t) := by
  rw [← Nat.le_div_iff_mul_le positive, ceilDiv_le_iff positive]

/-- Rounding up by adding what is missing. -/
theorem add_missing {w t : Nat} (positive : 0 < t) :
    (if w % t ≠ 0 then w + (t - w % t) else w) = (w + t - 1) / t * t := by
  obtain ⟨q, r, below, rfl⟩ : ∃ q r, r < t ∧ w = t * q + r :=
    ⟨w / t, w % t, Nat.mod_lt w positive, (Nat.div_add_mod w t).symm⟩
  rw [Nat.mul_add_mod, Nat.mod_eq_of_lt below]
  by_cases whole : r = 0
  · have rounded : (t * q + r + t - 1) / t = q := by
      rw [show t * q + r + t - 1 = t * q + (t - 1) by omega, Nat.mul_add_div positive,
        Nat.div_eq_of_lt (by omega), Nat.add_zero]
    rw [if_neg (not_not.mpr whole), rounded, whole, Nat.add_zero, Nat.mul_comm]
  · have rounded : (t * q + r + t - 1) / t = q + 1 := by
      rw [show t * q + r + t - 1 = t * (q + 1) + (r - 1) by rw [Nat.mul_succ]; omega,
        Nat.mul_add_div positive, Nat.div_eq_of_lt (by omega), Nat.add_zero]
    rw [if_pos whole, rounded, Nat.succ_mul, Nat.mul_comm q]
    omega

end BtcRig.Theory.Tiling
