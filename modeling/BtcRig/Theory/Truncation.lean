/-
# BtcRig.Theory.Truncation — a positive rational cut to a short mantissa

`Normal base low top value mant exp` says that `value` is `mant * base ^ exp`
with a mantissa in one base-`base` octave above `low`, except at the two ends of
the exponent's range.  `trunc` drops the fraction of the mantissa.

* `trunc_le`, `lt_trunc_add`: what is dropped is less than one unit, or less than
  one part in `low` of what is kept;
* `trunc_mono`: the cut respects the order, also between different exponents.
-/
import Mathlib

namespace BtcRig.Theory.Truncation

set_option autoImplicit false

structure Normal (base low top : ℕ) (value mant : ℚ) (exp : ℕ) : Prop where
  exact : mant * (base : ℚ) ^ exp = value
  bounded : exp ≤ top
  large : exp = 0 ∨ (low : ℚ) ≤ mant
  small : exp < top → mant < low * base

def trunc (base : ℕ) (mant : ℚ) (exp : ℕ) : ℕ := ⌊mant⌋₊ * base ^ exp

section Cut

variable {base low top : ℕ} {value mant : ℚ} {exp : ℕ}

theorem Normal.mant_nonneg (normal : Normal base low top value mant exp) (positive : 0 < base)
    (nonneg : 0 ≤ value) : 0 ≤ mant := by
  have unit : (0 : ℚ) < (base : ℚ) ^ exp := by positivity
  rw [← normal.exact] at nonneg
  exact nonneg_of_mul_nonneg_left nonneg unit

theorem trunc_le (normal : Normal base low top value mant exp) (positive : 0 < base)
    (nonneg : 0 ≤ value) : (trunc base mant exp : ℚ) ≤ value := by
  have kept : (⌊mant⌋₊ : ℚ) ≤ mant := Nat.floor_le (normal.mant_nonneg positive nonneg)
  rw [← normal.exact, trunc]
  push_cast
  exact mul_le_mul_of_nonneg_right kept (by positivity)

theorem lt_trunc_add (normal : Normal base low top value mant exp) (positive : 0 < base)
    (wide : 0 < low) : value < trunc base mant exp + max 1 (trunc base mant exp / low : ℚ) := by
  have unit : (0 : ℚ) < (base : ℚ) ^ exp := by positivity
  have dropped : mant < ⌊mant⌋₊ + 1 := Nat.lt_floor_add_one mant
  have near : value < trunc base mant exp + (base : ℚ) ^ exp := by
    rw [← normal.exact, trunc]
    push_cast
    nlinarith
  rcases normal.large with zero | large
  · have one : (base : ℚ) ^ exp = 1 := by rw [zero, pow_zero]
    linarith [le_max_left (1 : ℚ) (trunc base mant exp / low)]
  · have floor : (low : ℚ) ≤ ⌊mant⌋₊ := by
      exact_mod_cast Nat.le_floor large
    have share : (base : ℚ) ^ exp ≤ trunc base mant exp / low := by
      rw [le_div_iff₀ (by exact_mod_cast wide), trunc, mul_comm]
      push_cast
      exact mul_le_mul_of_nonneg_right floor unit.le
    linarith [le_max_right (1 : ℚ) (trunc base mant exp / low)]

/-- A smaller number is not cut to a larger one. -/
theorem trunc_mono {value' mant' : ℚ} {exp' : ℕ} (normal : Normal base low top value mant exp)
    (normal' : Normal base low top value' mant' exp') (positive : 0 < base)
    (nonneg : 0 ≤ value) (ordered : value ≤ value') :
    trunc base mant exp ≤ trunc base mant' exp' := by
  have wide (n : ℕ) : (0 : ℚ) < (base : ℚ) ^ n := by positivity
  have one : (1 : ℚ) ≤ base := by exact_mod_cast positive
  rcases lt_trichotomy exp exp' with less | same | greater
  · -- one octave further up even the smallest mantissa is larger
    have large : (low : ℚ) ≤ mant' := normal'.large.resolve_left (by omega)
    have small : mant < low * base := normal.small (by have := normal'.bounded; omega)
    have floor : (low : ℚ) ≤ ⌊mant'⌋₊ := by exact_mod_cast Nat.le_floor large
    have step : (base : ℚ) * (base : ℚ) ^ exp ≤ (base : ℚ) ^ exp' := by
      rw [← pow_succ']
      exact pow_le_pow_right₀ one less
    have bound : (trunc base mant exp : ℚ) ≤ trunc base mant' exp' := by
      calc (trunc base mant exp : ℚ) ≤ mant * (base : ℚ) ^ exp :=
            normal.exact ▸ trunc_le normal positive nonneg
        _ ≤ (low * base) * (base : ℚ) ^ exp :=
            mul_le_mul_of_nonneg_right small.le (wide exp).le
        _ = low * (base * (base : ℚ) ^ exp) := by ring
        _ ≤ ⌊mant'⌋₊ * (base : ℚ) ^ exp' :=
            mul_le_mul floor step (mul_pos (by linarith) (wide exp)).le (by positivity)
        _ = trunc base mant' exp' := by rw [trunc]; push_cast; rfl
    exact_mod_cast bound
  · subst same
    have below : mant ≤ mant' := by
      rw [← normal.exact, ← normal'.exact] at ordered
      exact le_of_mul_le_mul_right ordered (wide exp)
    exact Nat.mul_le_mul_right _ (Nat.floor_le_floor below)
  · -- the smaller number cannot have the larger exponent
    have large : (low : ℚ) ≤ mant := normal.large.resolve_left (by omega)
    have small : mant' < low * base := normal'.small (by have := normal.bounded; omega)
    have step : (base : ℚ) * (base : ℚ) ^ exp' ≤ (base : ℚ) ^ exp := by
      rw [← pow_succ']
      exact pow_le_pow_right₀ one greater
    have impossible : value' < value := by
      calc value' = mant' * (base : ℚ) ^ exp' := normal'.exact.symm
        _ < (low * base) * (base : ℚ) ^ exp' := mul_lt_mul_of_pos_right small (wide exp')
        _ = low * (base * (base : ℚ) ^ exp') := by ring
        _ ≤ mant * (base : ℚ) ^ exp :=
            mul_le_mul large step (mul_pos (by linarith) (wide exp')).le
              ((Nat.cast_nonneg low).trans large)
        _ = value := normal.exact
    exact absurd ordered impossible.not_ge

end Cut

end BtcRig.Theory.Truncation
