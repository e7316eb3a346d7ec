/-
# BtcRig.Theory.ArmSha — the SHA-256 instructions of the Arm Cryptographic Extension

The documented meaning of the Arm intrinsics that vector SHA-256 code is written
with.  A register is four 32-bit lanes, lane 0 first in memory.  `sha256Hash` is the
manual's pseudocode for SHA256H and SHA256H2: four times, one round on the 256-bit
pair of registers followed by a rotation of the pair by one lane.

`abcd` and `efgh` are the two register images of the eight working variables.
`sha256Hash_eq` says that the pair of instructions is four rounds, and `su_quad` that
the pair SHA256SU0, SHA256SU1 is four steps of the schedule recurrence.
-/
import BtcRig.Theory.Sha256

namespace BtcRig.Theory.ArmSha

open BtcRig.Theory.Words
open BtcRig.Theory.Sha256

set_option autoImplicit false

@[ext] structure U32x4 where
  l0 : Word
  l1 : Word
  l2 : Word
  l3 : Word
deriving DecidableEq

/-! ## Semantics -/

def vld1qU32 (words : Vector Word 4) : U32x4 := ⟨words.quad0, words.quad1, words.quad2, words.quad3⟩

def vaddqU32 (a b : U32x4) : U32x4 := ⟨a.l0 + b.l0, a.l1 + b.l1, a.l2 + b.l2, a.l3 + b.l3⟩

def shaChoose (x y z : Word) : Word := ((y ^^^ z) &&& x) ^^^ z

def shaMajority (x y z : Word) : Word := (x &&& y) ||| ((x ||| y) &&& z)

/-- One pass of the loop in `SHA256hash`: the top lanes of both registers are
replaced, and `Y:X` is rotated left by 32 bits. -/
def sha256HashStep (w : Word) (xy : U32x4 × U32x4) : U32x4 × U32x4 :=
  let (x, y) := xy
  let chs := shaChoose y.l0 y.l1 y.l2
  let maj := shaMajority x.l0 x.l1 x.l2
  let t := y.l3 + bigSigma1 y.l0 + chs + w
  let x := { x with l3 := t + x.l3 }
  let y := { y with l3 := t + bigSigma0 x.l0 + maj }
  (⟨y.l3, x.l0, x.l1, x.l2⟩, ⟨x.l3, y.l0, y.l1, y.l2⟩)

def sha256Hash (x y w : U32x4) : U32x4 × U32x4 :=
  sha256HashStep w.l3 (sha256HashStep w.l2 (sha256HashStep w.l1 (sha256HashStep w.l0 (x, y))))

/-- SHA256H: the first register of the hash. -/
def vsha256hqU32 (hashAbcd hashEfgh wk : U32x4) : U32x4 := (sha256Hash hashAbcd hashEfgh wk).1

/-- SHA256H2: the second one.  The instruction takes its operands the other way round. -/
def vsha256h2qU32 (hashEfgh hashAbcd wk : U32x4) : U32x4 := (sha256Hash hashAbcd hashEfgh wk).2

/-- SHA256SU0 works on lanes 1 to 4 of its operands side by side. -/
def vsha256su0qU32 (w0_3 w4_7 : U32x4) : U32x4 :=
  ⟨smallSigma0 w0_3.l1 + w0_3.l0, smallSigma0 w0_3.l2 + w0_3.l1, smallSigma0 w0_3.l3 + w0_3.l2,
    smallSigma0 w4_7.l0 + w0_3.l3⟩

/-- SHA256SU1: the upper half needs the lower half of its own result. -/
def vsha256su1qU32 (tw0_3 w8_11 w12_15 : U32x4) : U32x4 :=
  let r0 := smallSigma1 w12_15.l2 + tw0_3.l0 + w8_11.l1
  let r1 := smallSigma1 w12_15.l3 + tw0_3.l1 + w8_11.l2
  let r2 := smallSigma1 r0 + tw0_3.l2 + w8_11.l3
  let r3 := smallSigma1 r1 + tw0_3.l3 + w12_15.l0
  ⟨r0, r1, r2, r3⟩

/-! ## The logical functions are those of the standard -/

theorem shaChoose_eq_ch (x y z : Word) : shaChoose x y z = ch x y z := by
  ext i hi
  simp only [shaChoose, ch, BitVec.getElem_xor, BitVec.getElem_and, BitVec.getElem_not]
  cases x[i] <;> cases y[i] <;> cases z[i] <;> rfl

theorem shaMajority_eq_maj (x y z : Word) : shaMajority x y z = maj x y z := by
  ext i hi
  simp only [shaMajority, maj, BitVec.getElem_or, BitVec.getElem_xor, BitVec.getElem_and]
  cases x[i] <;> cases y[i] <;> cases z[i] <;> rfl

/-! ## Register images of the working variables and of the schedule -/

def abcd (s : Work) : U32x4 := ⟨s.a, s.b, s.c, s.d⟩

def efgh (s : Work) : U32x4 := ⟨s.e, s.f, s.g, s.h⟩

/-- Words `t … t + 3` of a sequence in one register. -/
def quad (W : Nat → Word) (t : Nat) : U32x4 := ⟨W t, W (t + 1), W (t + 2), W (t + 3)⟩

theorem sha256HashStep_eq (w : Word) (s : Work) :
    sha256HashStep w (abcd s, efgh s) = (abcd (s.round w), efgh (s.round w)) := by
  have sum : s.h + bigSigma1 s.e + ch s.e s.f s.g + w + bigSigma0 s.a + maj s.a s.b s.c =
      s.h + bigSigma1 s.e + ch s.e s.f s.g + w + (bigSigma0 s.a + maj s.a s.b s.c) :=
    BitVec.add_assoc _ _ _
  simp only [sha256HashStep, abcd, efgh, shaChoose_eq_ch, shaMajority_eq_maj, sum, Work.round,
    BitVec.add_comm s.d]

/-- The pair of hash instructions is four rounds. -/
theorem sha256Hash_eq (s : Work) (w : U32x4) :
    sha256Hash (abcd s) (efgh s) w =
      (abcd ((((s.round w.l0).round w.l1).round w.l2).round w.l3),
        efgh ((((s.round w.l0).round w.l1).round w.l2).round w.l3)) := by
  simp only [sha256Hash, sha256HashStep_eq]

theorem vsha256hqU32_eq (s : Work) (w : U32x4) :
    vsha256hqU32 (abcd s) (efgh s) w =
      abcd ((((s.round w.l0).round w.l1).round w.l2).round w.l3) := by
  rw [vsha256hqU32, sha256Hash_eq]

theorem vsha256h2qU32_eq (s : Work) (w : U32x4) :
    vsha256h2qU32 (efgh s) (abcd s) w =
      efgh ((((s.round w.l0).round w.l1).round w.l2).round w.l3) := by
  rw [vsha256h2qU32, sha256Hash_eq]

/-- The schedule step on registers: the next four words from the last sixteen. -/
theorem su_quad (W : Nat → Word)
    (recurrence : ∀ t,
      W (t + 16) = smallSigma1 (W (t + 14)) + W (t + 9) + smallSigma0 (W (t + 1)) + W t)
    (t : Nat) :
    vsha256su1qU32 (vsha256su0qU32 (quad W t) (quad W (t + 4))) (quad W (t + 8)) (quad W (t + 12)) =
      quad W (t + 16) := by
  have sum : ∀ t, smallSigma1 (W (t + 14)) + (smallSigma0 (W (t + 1)) + W t) + W (t + 9) =
      W (t + 16) := by
    intro t
    rw [recurrence t]
    ac_rfl
  have w₁₆ := sum t
  have w₁₇ := sum (t + 1)
  have w₁₈ := sum (t + 2)
  have w₁₉ := sum (t + 3)
  simp only [Nat.add_assoc, Nat.reduceAdd] at w₁₇ w₁₈ w₁₉
  simp only [vsha256su1qU32, vsha256su0qU32, quad, Nat.add_assoc, Nat.reduceAdd, w₁₆, w₁₇, w₁₈, w₁₉]

end BtcRig.Theory.ArmSha
