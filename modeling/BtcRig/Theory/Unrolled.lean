/-
# BtcRig.Theory.Unrolled — rounds with a rolling schedule and renamed registers

Two devices of unrolled SHA-256 code, each with the one step lemma it needs.

* `Rolling`: sixteen words hold the sixteen latest schedule words, word `j` in slot
  `j % 16`; `Rolling.step` replaces the oldest one in place.
* `Named`: eight registers hold the eight working variables and are never moved; round
  `t` calls them by names rotated `t` times, and `Named.step` is the round that writes
  only the two of them that change.
-/
import BtcRig.Theory.Sha256

namespace BtcRig.Theory.Unrolled

open BtcRig.Theory.Words
open BtcRig.Theory.Sha256

set_option autoImplicit false

/-! ## The rolling schedule -/

/-- The sixteen words are `W t … W (t + 15)`. -/
def Rolling (W : Nat → Word) (t : Nat) (w : Vector Word 16) : Prop :=
  ∀ j, t ≤ j → j < t + 16 → w[j % 16] = W j

theorem mod16_lt (t : Nat) : t % 16 < 16 := Nat.mod_lt t (by decide)

theorem le64 : 64 ≤ 64 := le_rfl

theorem lt64 {i n : Nat} (inside : i < n) (bound : n ≤ 64) : i < 64 := lt_of_lt_of_le inside bound

/-- The new word of a slot from the old contents. -/
def nextWord (w : Vector Word 16) (t : Nat) : Word :=
  w[t % 16] + smallSigma0 w[(t + 1) % 16] + w[(t + 9) % 16] + smallSigma1 w[(t + 14) % 16]

/-- The new word is computed from slots that still hold the last sixteen words. -/
theorem Rolling.nextWord_eq {W : Nat → Word} {t : Nat} {w : Vector Word 16} (rolling : Rolling W t w)
    (recurrence : ∀ t,
      W (t + 16) = smallSigma1 (W (t + 14)) + W (t + 9) + smallSigma0 (W (t + 1)) + W t) :
    nextWord w t = W (t + 16) := by
  rw [nextWord, rolling t le_rfl (by omega), rolling (t + 1) (by omega) (by omega),
    rolling (t + 9) (by omega) (by omega), rolling (t + 14) (by omega) (by omega), recurrence]
  ac_rfl

/-- Overwriting the oldest slot with the next word keeps the window rolling. -/
theorem Rolling.step {W : Nat → Word} {t : Nat} {w : Vector Word 16} (rolling : Rolling W t w)
    {word : Word} (isNext : word = W (t + 16)) :
    Rolling W (t + 1) (w.set (t % 16) word (mod16_lt t)) := by
  intro j low high
  by_cases newest : j = t + 16
  · subst newest
    simp only [Nat.add_mod_right, Vector.getElem_set_self, isNext]
  · rw [Vector.getElem_set_ne _ _ (by omega)]
    exact rolling j (by omega) (by omega)

/-- At first the slots hold the block. -/
theorem rolling_block (w : Vector Word 16) : Rolling (schedule w.toList) 0 w := by
  intro j _ high
  have first : j < 16 := by omega
  have slot : j % 16 = j := Nat.mod_eq_of_lt first
  rw [schedule_block (by simp) first, List.getD_eq_getElem?_getD]
  simp [slot, first]

/-! ## Renamed registers -/

inductive Reg where
  | a | b | c | d | e | f | g | h
deriving DecidableEq

/-- Register names in a cycle. -/
def name (n : Nat) : Reg :=
  match n % 8 with
  | 0 => .a
  | 1 => .b
  | 2 => .c
  | 3 => .d
  | 4 => .e
  | 5 => .f
  | 6 => .g
  | _ => .h

def index : Reg → Nat
  | .a => 0
  | .b => 1
  | .c => 2
  | .d => 3
  | .e => 4
  | .f => 5
  | .g => 6
  | .h => 7

theorem index_name (n : Nat) : index (name n) = n % 8 := by
  have small : n % 8 < 8 := Nat.mod_lt n (by omega)
  unfold name
  interval_cases n % 8 <;> rfl

theorem name_congr {m n : Nat} (same : m % 8 = n % 8) : name m = name n := by
  rw [name, name, same]

/-- Different remainders name different registers. -/
theorem name_ne {m n : Nat} (other : m % 8 ≠ n % 8) : name m ≠ name n := by
  intro same
  exact other (by rw [← index_name m, ← index_name n, same])

/-- Working variable `p`. -/
def field (s : Work) : Nat → Word
  | 0 => s.a
  | 1 => s.b
  | 2 => s.c
  | 3 => s.d
  | 4 => s.e
  | 5 => s.f
  | 6 => s.g
  | _ => s.h

/-- After `t` rounds variable `p` is in the register that was variable `p - t`. -/
def Named (t : Nat) (s : Work) (regs : Reg → Word) : Prop :=
  ∀ p < 8, regs (name (p + 7 * t)) = field s p

/-- Writing two registers and renaming all of them is a round. -/
theorem Named.step {t : Nat} {s : Work} {regs : Reg → Word} (named : Named t s regs) {kw newE newA : Word}
    (isE : newE = (s.round kw).e) (isA : newA = (s.round kw).a) :
    Named (t + 1) (s.round kw)
      (Function.update (Function.update regs (name (3 + 7 * t)) newE) (name (7 + 7 * t)) newA) := by
  -- the variables that only move keep their registers
  have moves : ∀ p < 8, p ≠ 0 → p ≠ 4 → (Function.update (Function.update regs (name (3 + 7 * t)) newE)
      (name (7 + 7 * t)) newA) (name (p + 7 * (t + 1))) = field s (p - 1) := by
    intro p small notA notE
    rw [name_congr (show (p + 7 * (t + 1)) % 8 = (p - 1 + 7 * t) % 8 by omega),
      Function.update_of_ne (name_ne (by omega)), Function.update_of_ne (name_ne (by omega))]
    exact named (p - 1) (by omega)
  intro p small
  interval_cases p
  · rw [name_congr (show (0 + 7 * (t + 1)) % 8 = (7 + 7 * t) % 8 by omega), Function.update_self, isA]
    rfl
  · exact moves 1 (by omega) (by omega) (by omega)
  · exact moves 2 (by omega) (by omega) (by omega)
  · exact moves 3 (by omega) (by omega) (by omega)
  · rw [name_congr (show (4 + 7 * (t + 1)) % 8 = (3 + 7 * t) % 8 by omega),
      Function.update_of_ne (name_ne (by omega)), Function.update_self, isE]
    rfl
  · exact moves 5 (by omega) (by omega) (by omega)
  · exact moves 6 (by omega) (by omega) (by omega)
  · exact moves 7 (by omega) (by omega) (by omega)

end BtcRig.Theory.Unrolled
