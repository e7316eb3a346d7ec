/-
# BtcRig.Theory.X86Sha — the 128-bit intrinsics of the SHA extension

The documented meaning of the x86 intrinsics that vector SHA-256 code is written
with.  A register is a `BitVec 128`; `mmSetEpi32` builds one from four lanes and
`lane` reads one back.  The byte- and halfword-granular operations are defined on
bits, as the manual has them, and the lane forms used in proofs
(`mmAlignrEpi8_four`, `mmBlendEpi16_high`, …) are theorems about those.

`abef` and `cdgh` are the two register images of the eight working variables.
`mmSha256rnds2Epu32_eq` is two rounds on them, `mmSha256msg1Epu32_quad` and
`mmSha256msg2Epu32_quad` are the two halves of a schedule step.
-/
import BtcRig.Theory.Sha256

namespace BtcRig.Theory.X86Sha

open BtcRig.Theory.Words
open BtcRig.Theory.Sha256

set_option autoImplicit false

abbrev M128 := BitVec 128

/-! ## Semantics -/

/-- Four lanes, the most significant first. -/
def mmSetEpi32 (e₃ e₂ e₁ e₀ : Word) : M128 := e₃ ++ e₂ ++ e₁ ++ e₀

def lane (x : M128) (i : Nat) : Word := x.extractLsb' (32 * i) 32

def mmSetzeroSi128 : M128 := 0

/-- Lane `i` of the result is the lane that bits `2i+1:2i` of `imm` select. -/
def mmShuffleEpi32 (a : M128) (imm : BitVec 8) : M128 :=
  let pick := fun i => lane a (imm.extractLsb' (2 * i) 2).toNat
  mmSetEpi32 (pick 3) (pick 2) (pick 1) (pick 0)

/-- Concatenate `a:b`, shift right by `imm` bytes, keep the low half. -/
def mmAlignrEpi8 (a b : M128) (imm : Nat) : M128 := ((a ++ b) >>> (8 * imm)).setWidth 128

/-- Halfword `j` comes from `b` when bit `j` of `imm` is set, from `a` otherwise. -/
def mmBlendEpi16 (a b : M128) (imm : BitVec 8) : M128 :=
  let pick := fun j => (if imm.getLsbD j then b else a).extractLsb' (16 * j) 16
  pick 7 ++ pick 6 ++ pick 5 ++ pick 4 ++ pick 3 ++ pick 2 ++ pick 1 ++ pick 0

def mmAddEpi32 (a b : M128) : M128 :=
  mmSetEpi32 (lane a 3 + lane b 3) (lane a 2 + lane b 2) (lane a 1 + lane b 1) (lane a 0 + lane b 0)

def mmSha256msg1Epu32 (a b : M128) : M128 :=
  mmSetEpi32 (lane a 3 + smallSigma0 (lane b 0)) (lane a 2 + smallSigma0 (lane a 3))
    (lane a 1 + smallSigma0 (lane a 2)) (lane a 0 + smallSigma0 (lane a 1))

def mmSha256msg2Epu32 (a b : M128) : M128 :=
  let w₁₆ := lane a 0 + smallSigma1 (lane b 2)
  let w₁₇ := lane a 1 + smallSigma1 (lane b 3)
  let w₁₈ := lane a 2 + smallSigma1 w₁₆
  let w₁₉ := lane a 3 + smallSigma1 w₁₇
  mmSetEpi32 w₁₉ w₁₈ w₁₇ w₁₆

/-- One round in the order the manual sums it. -/
def rndsStep (wk : Word) (s : Work) : Work where
  a := ch s.e s.f s.g + bigSigma1 s.e + wk + s.h + maj s.a s.b s.c + bigSigma0 s.a
  b := s.a
  c := s.b
  d := s.c
  e := ch s.e s.f s.g + bigSigma1 s.e + wk + s.h + s.d
  f := s.e
  g := s.f
  h := s.g

/-- Two rounds: `a` holds C D G H, `b` holds A B E F, the low half of `k` the two
round inputs; the result is the new A B E F. -/
def mmSha256rnds2Epu32 (a b k : M128) : M128 :=
  let s : Work := ⟨lane b 3, lane b 2, lane a 3, lane a 2, lane b 1, lane b 0, lane a 1, lane a 0⟩
  let s := rndsStep (lane k 1) (rndsStep (lane k 0) s)
  mmSetEpi32 s.a s.b s.e s.f

/-! ## Lanes -/

@[simp] theorem lane_set_zero (e₃ e₂ e₁ e₀ : Word) : lane (mmSetEpi32 e₃ e₂ e₁ e₀) 0 = e₀ := by
  ext i hi
  simp only [lane, mmSetEpi32, BitVec.getElem_extractLsb', BitVec.getLsbD_append]
  grind

@[simp] theorem lane_set_one (e₃ e₂ e₁ e₀ : Word) : lane (mmSetEpi32 e₃ e₂ e₁ e₀) 1 = e₁ := by
  ext i hi
  simp only [lane, mmSetEpi32, BitVec.getElem_extractLsb', BitVec.getLsbD_append]
  grind

@[simp] theorem lane_set_two (e₃ e₂ e₁ e₀ : Word) : lane (mmSetEpi32 e₃ e₂ e₁ e₀) 2 = e₂ := by
  ext i hi
  simp only [lane, mmSetEpi32, BitVec.getElem_extractLsb', BitVec.getLsbD_append]
  grind

@[simp] theorem lane_set_three (e₃ e₂ e₁ e₀ : Word) : lane (mmSetEpi32 e₃ e₂ e₁ e₀) 3 = e₃ := by
  ext i hi
  simp only [lane, mmSetEpi32, BitVec.getElem_extractLsb', BitVec.getLsbD_append]
  grind

theorem mmSetzeroSi128_eq : mmSetzeroSi128 = mmSetEpi32 0 0 0 0 := by decide

theorem mmAlignrEpi8_four (a₃ a₂ a₁ a₀ b₃ b₂ b₁ b₀ : Word) :
    mmAlignrEpi8 (mmSetEpi32 a₃ a₂ a₁ a₀) (mmSetEpi32 b₃ b₂ b₁ b₀) 4 = mmSetEpi32 a₀ b₃ b₂ b₁ := by
  apply BitVec.eq_of_getLsbD_eq
  intro i hi
  simp only [mmAlignrEpi8, mmSetEpi32, BitVec.getLsbD_setWidth, BitVec.getLsbD_ushiftRight,
    BitVec.getLsbD_append]
  grind

theorem mmAlignrEpi8_eight (a₃ a₂ a₁ a₀ b₃ b₂ b₁ b₀ : Word) :
    mmAlignrEpi8 (mmSetEpi32 a₃ a₂ a₁ a₀) (mmSetEpi32 b₃ b₂ b₁ b₀) 8 = mmSetEpi32 a₁ a₀ b₃ b₂ := by
  apply BitVec.eq_of_getLsbD_eq
  intro i hi
  simp only [mmAlignrEpi8, mmSetEpi32, BitVec.getLsbD_setWidth, BitVec.getLsbD_ushiftRight,
    BitVec.getLsbD_append]
  grind

theorem mmBlendEpi16_high (a₃ a₂ a₁ a₀ b₃ b₂ b₁ b₀ : Word) :
    mmBlendEpi16 (mmSetEpi32 a₃ a₂ a₁ a₀) (mmSetEpi32 b₃ b₂ b₁ b₀) 0xf0 =
      mmSetEpi32 b₃ b₂ a₁ a₀ := by
  have low : ∀ j < 4, (0xf0 : BitVec 8).getLsbD j = false := by decide
  have high : ∀ j < 8, 4 ≤ j → (0xf0 : BitVec 8).getLsbD j = true := by decide
  apply BitVec.eq_of_getLsbD_eq
  intro i hi
  simp only [mmBlendEpi16, low 0 (by omega), low 1 (by omega), low 2 (by omega), low 3 (by omega),
    high 4 (by omega) (by omega), high 5 (by omega) (by omega), high 6 (by omega) (by omega),
    high 7 (by omega) (by omega), Bool.false_eq_true, if_false, if_true, mmSetEpi32,
    BitVec.getLsbD_append, BitVec.getLsbD_extractLsb']
  grind

theorem mmShuffleEpi32_b1 (a₃ a₂ a₁ a₀ : Word) :
    mmShuffleEpi32 (mmSetEpi32 a₃ a₂ a₁ a₀) 0xb1 = mmSetEpi32 a₂ a₃ a₀ a₁ := by
  simp [mmShuffleEpi32]

theorem mmShuffleEpi32_1b (a₃ a₂ a₁ a₀ : Word) :
    mmShuffleEpi32 (mmSetEpi32 a₃ a₂ a₁ a₀) 0x1b = mmSetEpi32 a₀ a₁ a₂ a₃ := by
  simp [mmShuffleEpi32]

theorem mmShuffleEpi32_0e (a₃ a₂ a₁ a₀ : Word) :
    mmShuffleEpi32 (mmSetEpi32 a₃ a₂ a₁ a₀) 0x0e = mmSetEpi32 a₀ a₀ a₃ a₂ := by
  simp [mmShuffleEpi32]

/-! ## Register images of the working variables and of the schedule -/

/-- The register that holds A B E F. -/
def abef (s : Work) : M128 := mmSetEpi32 s.a s.b s.e s.f

/-- The register that holds C D G H. -/
def cdgh (s : Work) : M128 := mmSetEpi32 s.c s.d s.g s.h

/-- Schedule words `t … t + 3` in one register. -/
def quad (W : Nat → Word) (t : Nat) : M128 := mmSetEpi32 (W (t + 3)) (W (t + 2)) (W (t + 1)) (W t)

/-- A step of the instruction is a round. -/
theorem rndsStep_eq_round (wk : Word) (s : Work) : rndsStep wk s = s.round wk := by
  simp only [rndsStep, Work.round, Work.mk.injEq, and_true, true_and]
  constructor <;> ac_rfl

/-- Two rounds turn C D G H into the next A B E F; A B E F is the next C D G H. -/
theorem mmSha256rnds2Epu32_eq (s : Work) (k₃ k₂ k₁ k₀ : Word) :
    mmSha256rnds2Epu32 (cdgh s) (abef s) (mmSetEpi32 k₃ k₂ k₁ k₀) =
      abef ((s.round k₀).round k₁) := by
  simp only [mmSha256rnds2Epu32, abef, cdgh, lane_set_zero, lane_set_one, lane_set_two,
    lane_set_three, rndsStep_eq_round]

theorem cdgh_round_round (s : Work) (k₀ k₁ : Word) : cdgh ((s.round k₀).round k₁) = abef s := rfl

/-- First half of the schedule step: `W t + σ₀ (W (t + 1))` in each lane. -/
def partialQuad (W : Nat → Word) (t : Nat) : M128 :=
  mmSetEpi32 (W (t + 3) + smallSigma0 (W (t + 4))) (W (t + 2) + smallSigma0 (W (t + 3)))
    (W (t + 1) + smallSigma0 (W (t + 2))) (W t + smallSigma0 (W (t + 1)))

/-- The first message instruction adds the small sigma of the next word. -/
theorem mmSha256msg1Epu32_quad (W : Nat → Word) (t : Nat) :
    mmSha256msg1Epu32 (quad W t) (quad W (t + 4)) = partialQuad W t := by
  simp [mmSha256msg1Epu32, quad, partialQuad]

/-- The schedule step on registers: the next four words from the last sixteen. -/
theorem mmSha256msg2Epu32_quad (W : Nat → Word)
    (recurrence : ∀ t,
      W (t + 16) = smallSigma1 (W (t + 14)) + W (t + 9) + smallSigma0 (W (t + 1)) + W t)
    (t : Nat) :
    mmSha256msg2Epu32
        (mmAddEpi32 (partialQuad W t) (mmAlignrEpi8 (quad W (t + 12)) (quad W (t + 8)) 4))
        (quad W (t + 12)) = quad W (t + 16) := by
  have sum : ∀ t, W t + smallSigma0 (W (t + 1)) + W (t + 9) + smallSigma1 (W (t + 14)) =
      W (t + 16) := by
    intro t
    rw [recurrence t]
    ac_rfl
  have w₁₆ := sum t
  have w₁₇ := sum (t + 1)
  have w₁₈ := sum (t + 2)
  have w₁₉ := sum (t + 3)
  simp only [Nat.add_assoc, Nat.reduceAdd] at w₁₇ w₁₈ w₁₉
  simp only [mmSha256msg2Epu32, mmAddEpi32, partialQuad, quad, mmAlignrEpi8_four, lane_set_zero,
    lane_set_one, lane_set_two, lane_set_three, Nat.add_assoc, Nat.reduceAdd, w₁₆, w₁₇, w₁₈, w₁₉]

end BtcRig.Theory.X86Sha
