/-
# BtcRig.Gpu.Macros — the unrolled compression both GPU sources are built from

`cuda_sha256d_kernel.cu` and the OpenCL strings of `opencl_miner.c` contain the same
macros and, line for line, the same sixty-four `ROUND` calls.  A `RoundCall` is the
argument list of one call: eight register names, the message operand, which may update
the schedule in place, and the constant.  `round` is what the macro does with it.

`sha256Rounds_eq` compares the table with the pattern it follows, and
`unrolledCompress_eq` concludes that the table computes the FIPS 180-4 compression.
-/
import BtcRig.Theory.Unrolled
import BtcRig.Hash.Scan

namespace BtcRig.Gpu.Macros

open BtcRig.Theory.Words
open BtcRig.Theory.Sha256
open BtcRig.Theory.Unrolled
open BtcRig.Hash.Sha256d (rotr32)

set_option autoImplicit false

/-! ## The macros -/

def bswap32 (v : Word) : Word :=
  ((v &&& 0x000000ff) <<< 24) ||| ((v &&& 0x0000ff00) <<< 8) ||| ((v &&& 0x00ff0000) >>> 8) |||
    ((v &&& 0xff000000) >>> 24)

def ss0 (x : Word) : Word := rotr32 x 7 ^^^ rotr32 x 18 ^^^ (x >>> 3)

def ss1 (x : Word) : Word := rotr32 x 17 ^^^ rotr32 x 19 ^^^ (x >>> 10)

def bs0 (x : Word) : Word := rotr32 x 2 ^^^ rotr32 x 13 ^^^ rotr32 x 22

def bs1 (x : Word) : Word := rotr32 x 6 ^^^ rotr32 x 11 ^^^ rotr32 x 25

/-- The definitions of `CH` and `MAJ` in force where a macro is expanded. -/
structure Logic where
  ch : Word → Word → Word → Word
  maj : Word → Word → Word → Word

def plainLogic : Logic where
  ch x y z := (x &&& y) ^^^ (~~~x &&& z)
  maj x y z := (x &&& y) ^^^ (x &&& z) ^^^ (y &&& z)

/-- The variables of one instance. -/
structure Locals where
  regs : Reg → Word
  w : Vector Word 16

instance sixteenSlots : NeZero 16 := ⟨by decide⟩

/-- The message argument of a round: a schedule variable, or `MSG` of four of them. -/
inductive Operand where
  | w (i : Fin 16)
  | msg (w0 w1 w9 w14 : Fin 16)
deriving DecidableEq

structure RoundCall where
  a : Reg
  b : Reg
  c : Reg
  d : Reg
  e : Reg
  f : Reg
  g : Reg
  h : Reg
  w : Operand
  k : Word
deriving DecidableEq

/-- The value of a message argument.  `MSG` assigns to its first variable. -/
def operand (l : Locals) : Operand → Word × Locals
  | .w i => (l.w[i], l)
  | .msg w0 w1 w9 w14 =>
      let value := l.w[w0] + (ss0 l.w[w1] + l.w[w9] + ss1 l.w[w14])
      (value, { l with w := l.w.set w0 value })

/-- The macro `ROUND`. -/
def round (logic : Logic) (l : Locals) (call : RoundCall) : Locals :=
  let (w, l) := operand l call.w
  let t1 := l.regs call.h + bs1 (l.regs call.e) +
    logic.ch (l.regs call.e) (l.regs call.f) (l.regs call.g) + call.k + w
  let t2 := bs0 (l.regs call.a) + logic.maj (l.regs call.a) (l.regs call.b) (l.regs call.c)
  let regs := Function.update l.regs call.d (l.regs call.d + t1)
  let regs := Function.update regs call.h (t1 + t2)
  { l with regs := regs }

/-- `u32 a=(s0), b=(s1), …, h=(s7)`. -/
def loadRegs (s : Vector Word 8) : Reg → Word
  | .a => s.word0
  | .b => s.word1
  | .c => s.word2
  | .d => s.word3
  | .e => s.word4
  | .f => s.word5
  | .g => s.word6
  | .h => s.word7

/-- `(s0)+=a; (s1)+=b; … (s7)+=h`. -/
def addRegs (s : Vector Word 8) (regs : Reg → Word) : Vector Word 8 :=
  .ofEight (s.word0 + regs .a) (s.word1 + regs .b) (s.word2 + regs .c) (s.word3 + regs .d)
    (s.word4 + regs .e) (s.word5 + regs .f) (s.word6 + regs .g) (s.word7 + regs .h)

section

open Reg

/-- The first thirty-two rounds of the unrolled compression. -/
def sha256RoundsLow : List RoundCall := [
  ⟨a, b, c, d, e, f, g, h, .w 0, 0x428a2f98⟩,
  ⟨h, a, b, c, d, e, f, g, .w 1, 0x71374491⟩,
  ⟨g, h, a, b, c, d, e, f, .w 2, 0xb5c0fbcf⟩,
  ⟨f, g, h, a, b, c, d, e, .w 3, 0xe9b5dba5⟩,
  ⟨e, f, g, h, a, b, c, d, .w 4, 0x3956c25b⟩,
  ⟨d, e, f, g, h, a, b, c, .w 5, 0x59f111f1⟩,
  ⟨c, d, e, f, g, h, a, b, .w 6, 0x923f82a4⟩,
  ⟨b, c, d, e, f, g, h, a, .w 7, 0xab1c5ed5⟩,
  ⟨a, b, c, d, e, f, g, h, .w 8, 0xd807aa98⟩,
  ⟨h, a, b, c, d, e, f, g, .w 9, 0x12835b01⟩,
  ⟨g, h, a, b, c, d, e, f, .w 10, 0x243185be⟩,
  ⟨f, g, h, a, b, c, d, e, .w 11, 0x550c7dc3⟩,
  ⟨e, f, g, h, a, b, c, d, .w 12, 0x72be5d74⟩,
  ⟨d, e, f, g, h, a, b, c, .w 13, 0x80deb1fe⟩,
  ⟨c, d, e, f, g, h, a, b, .w 14, 0x9bdc06a7⟩,
  ⟨b, c, d, e, f, g, h, a, .w 15, 0xc19bf174⟩,
  ⟨a, b, c, d, e, f, g, h, .msg 0 1 9 14, 0xe49b69c1⟩,
  ⟨h, a, b, c, d, e, f, g, .msg 1 2 10 15, 0xefbe4786⟩,
  ⟨g, h, a, b, c, d, e, f, .msg 2 3 11 0, 0x0fc19dc6⟩,
  ⟨f, g, h, a, b, c, d, e, .msg 3 4 12 1, 0x240ca1cc⟩,
  ⟨e, f, g, h, a, b, c, d, .msg 4 5 13 2, 0x2de92c6f⟩,
  ⟨d, e, f, g, h, a, b, c, .msg 5 6 14 3, 0x4a7484aa⟩,
  ⟨c, d, e, f, g, h, a, b, .msg 6 7 15 4, 0x5cb0a9dc⟩,
  ⟨b, c, d, e, f, g, h, a, .msg 7 8 0 5, 0x76f988da⟩,
  ⟨a, b, c, d, e, f, g, h, .msg 8 9 1 6, 0x983e5152⟩,
  ⟨h, a, b, c, d, e, f, g, .msg 9 10 2 7, 0xa831c66d⟩,
  ⟨g, h, a, b, c, d, e, f, .msg 10 11 3 8, 0xb00327c8⟩,
  ⟨f, g, h, a, b, c, d, e, .msg 11 12 4 9, 0xbf597fc7⟩,
  ⟨e, f, g, h, a, b, c, d, .msg 12 13 5 10, 0xc6e00bf3⟩,
  ⟨d, e, f, g, h, a, b, c, .msg 13 14 6 11, 0xd5a79147⟩,
  ⟨c, d, e, f, g, h, a, b, .msg 14 15 7 12, 0x06ca6351⟩,
  ⟨b, c, d, e, f, g, h, a, .msg 15 0 8 13, 0x14292967⟩
]

/-- The last thirty-two. -/
def sha256RoundsHigh : List RoundCall := [
  ⟨a, b, c, d, e, f, g, h, .msg 0 1 9 14, 0x27b70a85⟩,
  ⟨h, a, b, c, d, e, f, g, .msg 1 2 10 15, 0x2e1b2138⟩,
  ⟨g, h, a, b, c, d, e, f, .msg 2 3 11 0, 0x4d2c6dfc⟩,
  ⟨f, g, h, a, b, c, d, e, .msg 3 4 12 1, 0x53380d13⟩,
  ⟨e, f, g, h, a, b, c, d, .msg 4 5 13 2, 0x650a7354⟩,
  ⟨d, e, f, g, h, a, b, c, .msg 5 6 14 3, 0x766a0abb⟩,
  ⟨c, d, e, f, g, h, a, b, .msg 6 7 15 4, 0x81c2c92e⟩,
  ⟨b, c, d, e, f, g, h, a, .msg 7 8 0 5, 0x92722c85⟩,
  ⟨a, b, c, d, e, f, g, h, .msg 8 9 1 6, 0xa2bfe8a1⟩,
  ⟨h, a, b, c, d, e, f, g, .msg 9 10 2 7, 0xa81a664b⟩,
  ⟨g, h, a, b, c, d, e, f, .msg 10 11 3 8, 0xc24b8b70⟩,
  ⟨f, g, h, a, b, c, d, e, .msg 11 12 4 9, 0xc76c51a3⟩,
  ⟨e, f, g, h, a, b, c, d, .msg 12 13 5 10, 0xd192e819⟩,
  ⟨d, e, f, g, h, a, b, c, .msg 13 14 6 11, 0xd6990624⟩,
  ⟨c, d, e, f, g, h, a, b, .msg 14 15 7 12, 0xf40e3585⟩,
  ⟨b, c, d, e, f, g, h, a, .msg 15 0 8 13, 0x106aa070⟩,
  ⟨a, b, c, d, e, f, g, h, .msg 0 1 9 14, 0x19a4c116⟩,
  ⟨h, a, b, c, d, e, f, g, .msg 1 2 10 15, 0x1e376c08⟩,
  ⟨g, h, a, b, c, d, e, f, .msg 2 3 11 0, 0x2748774c⟩,
  ⟨f, g, h, a, b, c, d, e, .msg 3 4 12 1, 0x34b0bcb5⟩,
  ⟨e, f, g, h, a, b, c, d, .msg 4 5 13 2, 0x391c0cb3⟩,
  ⟨d, e, f, g, h, a, b, c, .msg 5 6 14 3, 0x4ed8aa4a⟩,
  ⟨c, d, e, f, g, h, a, b, .msg 6 7 15 4, 0x5b9cca4f⟩,
  ⟨b, c, d, e, f, g, h, a, .msg 7 8 0 5, 0x682e6ff3⟩,
  ⟨a, b, c, d, e, f, g, h, .msg 8 9 1 6, 0x748f82ee⟩,
  ⟨h, a, b, c, d, e, f, g, .msg 9 10 2 7, 0x78a5636f⟩,
  ⟨g, h, a, b, c, d, e, f, .msg 10 11 3 8, 0x84c87814⟩,
  ⟨f, g, h, a, b, c, d, e, .msg 11 12 4 9, 0x8cc70208⟩,
  ⟨e, f, g, h, a, b, c, d, .msg 12 13 5 10, 0x90befffa⟩,
  ⟨d, e, f, g, h, a, b, c, .msg 13 14 6 11, 0xa4506ceb⟩,
  ⟨c, d, e, f, g, h, a, b, .msg 14 15 7 12, 0xbef9a3f7⟩,
  ⟨b, c, d, e, f, g, h, a, .msg 15 0 8 13, 0xc67178f2⟩
]

end

def sha256Rounds : List RoundCall := sha256RoundsLow ++ sha256RoundsHigh

def unrolledCompress (logic : Logic) (s : Vector Word 8) (w : Vector Word 16) : Vector Word 8 :=
  let l : Locals := ⟨loadRegs s, w⟩
  let l := sha256Rounds.foldl (round logic) l
  addRegs s l.regs

/-! ## What the macros compute -/

/-- The shifts and masks of the kernels reverse the bytes. -/
theorem bswap32_eq (v : Word) : bswap32 v = Hash.Sha256d.bswap32 v := by
  ext i hi
  simp only [bswap32, Hash.Sha256d.bswap32, byteSwap, ofBe, byteAt, BitVec.getElem_or,
    BitVec.getElem_shiftLeft, BitVec.getElem_ushiftRight, BitVec.getLsbD_and, BitVec.getElem_and,
    BitVec.getLsbD_setWidth, BitVec.getElem_setWidth, BitVec.getLsbD_ushiftRight]
  interval_cases i <;> simp

theorem ss0_eq (x : Word) : ss0 x = smallSigma0 x := rfl

theorem ss1_eq (x : Word) : ss1 x = smallSigma1 x := rfl

theorem bs0_eq (x : Word) : bs0 x = bigSigma0 x := rfl

theorem bs1_eq (x : Word) : bs1 x = bigSigma1 x := rfl

/-- The logical functions are those of the standard. -/
structure Logic.Standard (logic : Logic) : Prop where
  ch : ∀ x y z, logic.ch x y z = Theory.Sha256.ch x y z
  maj : ∀ x y z, logic.maj x y z = Theory.Sha256.maj x y z

theorem plainLogic_standard : plainLogic.Standard := ⟨fun _ _ _ => rfl, fun _ _ _ => rfl⟩

/-! ## The table follows its pattern -/

def slot (t : Nat) : Fin 16 := ⟨t % 16, mod16_lt t⟩

def standardOperand (t : Nat) : Operand :=
  if t < 16 then .w (slot t) else .msg (slot t) (slot (t + 1)) (slot (t + 9)) (slot (t + 14))

/-- Round `t` with all names rotated `t` times. -/
def standardCall (t : Nat) : RoundCall :=
  ⟨name (0 + 7 * t), name (1 + 7 * t), name (2 + 7 * t), name (3 + 7 * t), name (4 + 7 * t),
    name (5 + 7 * t), name (6 + 7 * t), name (7 + 7 * t), standardOperand t, roundConstant t⟩

/-- The sixty-four calls as written are those of the pattern. -/
theorem sha256Rounds_eq : sha256Rounds = (List.range 64).map standardCall := by decide

/-- Before round `t` the registers hold the working variables and the schedule the
sixteen words from `t - 16` on. -/
structure At (W : Nat → Word) (s : Work) (t : Nat) (l : Locals) : Prop where
  named : Named t (rounds W t s) l.regs
  rolling : Rolling W (t - 16) l.w

/-- The operand of round `t` is the word of the schedule, and the slots roll on. -/
theorem operand_eq {W : Nat → Word} {s : Work} {t : Nat} {l : Locals} (inv : At W s t l)
    (recurrence : ∀ t,
      W (t + 16) = smallSigma1 (W (t + 14)) + W (t + 9) + smallSigma0 (W (t + 1)) + W t) :
    (operand l (standardOperand t)).1 = W t ∧ (operand l (standardOperand t)).2.regs = l.regs ∧
      Rolling W (t + 1 - 16) (operand l (standardOperand t)).2.w := by
  have rolling := inv.rolling
  unfold standardOperand
  split
  · rename_i early
    refine ⟨rolling t (by omega) (by omega), rfl, ?_⟩
    rw [show t + 1 - 16 = t - 16 by omega]
    exact rolling
  · rename_i late
    obtain ⟨m, rfl⟩ : ∃ m, t = m + 16 := ⟨t - 16, by omega⟩
    rw [Nat.add_sub_cancel] at rolling
    have isNext : nextWord l.w m = W (m + 16) := rolling.nextWord_eq recurrence
    have value : (operand l (.msg (slot (m + 16)) (slot (m + 16 + 1)) (slot (m + 16 + 9))
        (slot (m + 16 + 14)))).1 = W (m + 16) := by
      have oldest : (m + 16) % 16 = m % 16 := Nat.add_mod_right m 16
      have second : (m + 16 + 1) % 16 = (m + 1) % 16 := by omega
      have tenth : (m + 16 + 9) % 16 = (m + 9) % 16 := by omega
      have fifteenth : (m + 16 + 14) % 16 = (m + 14) % 16 := by omega
      rw [← isNext]
      simp only [operand, slot, Fin.getElem_fin, oldest, second, tenth, fifteenth, nextWord, ss0_eq,
        ss1_eq, BitVec.add_assoc]
    refine ⟨value, rfl, ?_⟩
    have step := rolling.step value
    simp only [← Nat.add_mod_right m 16] at step
    rw [show m + 16 + 1 - 16 = m + 1 by omega]
    exact step

/-- One call of the macro is one round. -/
theorem round_at {W : Nat → Word} {s : Work} {t : Nat} {l : Locals} {logic : Logic} (inv : At W s t l)
    (recurrence : ∀ t,
      W (t + 16) = smallSigma1 (W (t + 14)) + W (t + 9) + smallSigma0 (W (t + 1)) + W t)
    (standard : logic.Standard) : At W s (t + 1) (round logic l (standardCall t)) := by
  obtain ⟨value, regs, rolling⟩ := operand_eq inv recurrence
  let v := rounds W t s
  let t1 := v.h + bigSigma1 v.e + ch v.e v.f v.g + roundConstant t + W t
  have reg (p : Nat) (small : p < 8) : l.regs (name (p + 7 * t)) = field v p := inv.named p small
  have next : (round logic l (standardCall t)).regs =
      Function.update (Function.update l.regs (name (3 + 7 * t)) (v.d + t1)) (name (7 + 7 * t))
        (t1 + (bigSigma0 v.a + maj v.a v.b v.c)) := by
    simp only [round, standardCall, regs, value, reg 0 (by omega), reg 1 (by omega), reg 2 (by omega),
      reg 3 (by omega), reg 4 (by omega), reg 5 (by omega), reg 6 (by omega), reg 7 (by omega), field,
      standard.ch, standard.maj, bs0_eq, bs1_eq, t1]
  have sum : t1 = v.h + bigSigma1 v.e + ch v.e v.f v.g + (roundConstant t + W t) :=
    BitVec.add_assoc _ _ _
  have isE : v.d + t1 = (v.round (roundConstant t + W t)).e := by rw [sum]; rfl
  have isA : t1 + (bigSigma0 v.a + maj v.a v.b v.c) = (v.round (roundConstant t + W t)).a := by
    rw [sum]; rfl
  refine ⟨?_, rolling⟩
  rw [next]
  exact inv.named.step isE isA

/-- So `n` calls are `n` rounds, by induction on `n`. -/
theorem rounds_at {W : Nat → Word} {s : Work} {l : Locals} {logic : Logic} (inv : At W s 0 l)
    (recurrence : ∀ t,
      W (t + 16) = smallSigma1 (W (t + 14)) + W (t + 9) + smallSigma0 (W (t + 1)) + W t)
    (standard : logic.Standard) (n : Nat) :
    At W s n (((List.range n).map standardCall).foldl (round logic) l) := by
  induction n with
  | zero => exact inv
  | succ n ih =>
      rw [List.range_succ, List.map_append, List.foldl_append]
      exact round_at ih recurrence standard

/-- Before the first call the registers hold the state and the slots the block. -/
theorem at_start (s : Vector Word 8) (w : Vector Word 16) :
    At (schedule w.toList) (Work.ofState s) 0 ⟨loadRegs s, w⟩ := by
  have named : Named 0 (Work.ofState s) (loadRegs s) := by
    intro p small
    interval_cases p <;> rfl
  exact ⟨named, rolling_block w⟩

/-- After sixty-four rounds every register is back under its own name. -/
theorem addRegs_eq {v : Work} {regs : Reg → Word} (named : Named 64 v regs) (s : Vector Word 8) :
    addRegs s regs = feedForward s v := by
  have a : regs .a = v.a := named 0 (by omega)
  have b : regs .b = v.b := named 1 (by omega)
  have c : regs .c = v.c := named 2 (by omega)
  have d : regs .d = v.d := named 3 (by omega)
  have e : regs .e = v.e := named 4 (by omega)
  have f : regs .f = v.f := named 5 (by omega)
  have g : regs .g = v.g := named 6 (by omega)
  have h : regs .h = v.h := named 7 (by omega)
  rw [addRegs, a, b, c, d, e, f, g, h]
  rfl

/-- The unrolled compression is the standard one. -/
theorem unrolledCompress_eq {logic : Logic} (standard : logic.Standard) (s : Vector Word 8)
    (w : Vector Word 16) : unrolledCompress logic s w = compress s w.toList := by
  have inv := rounds_at (at_start s w) (schedule_rec (by simp)) standard 64
  rw [unrolledCompress, sha256Rounds_eq, addRegs_eq inv.named]
  rfl

end BtcRig.Gpu.Macros
