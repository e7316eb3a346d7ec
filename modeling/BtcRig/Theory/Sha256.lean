/-
# BtcRig.Theory.Sha256 — the FIPS 180-4 hash and its streaming interface

The specification the hashing code is compared with: the six logical functions,
the message schedule, the round, the compression function, padding and the hash
of a whole byte string.  Everything is computable.

* `schedule` — word `t` of the message schedule, for every `t`; it is read off a
  list that grows by one word at a time, and `schedule_rec` is the recurrence.
* `rounds` — rounds `0 … n - 1` on the eight working variables.
* `compress` — one block into the chaining state.
* `sha256` — padding, blocks, digest.
* `Ctx` — the incremental interface (`init`, `update`, `transform`) that a
  library exposes; `update_block` and `absorb_append` say how it relates to whole
  messages.
-/
import BtcRig.Theory.Words

namespace BtcRig.Theory.Sha256

open BtcRig.Theory.Words

set_option autoImplicit false

/-! ## Logical functions and constants -/

def rotr (n : Nat) (x : Word) : Word := (x >>> n) ||| (x <<< (32 - n))

def ch (x y z : Word) : Word := (x &&& y) ^^^ (~~~x &&& z)

def maj (x y z : Word) : Word := (x &&& y) ^^^ (x &&& z) ^^^ (y &&& z)

def bigSigma0 (x : Word) : Word := rotr 2 x ^^^ rotr 13 x ^^^ rotr 22 x

def bigSigma1 (x : Word) : Word := rotr 6 x ^^^ rotr 11 x ^^^ rotr 25 x

def smallSigma0 (x : Word) : Word := rotr 7 x ^^^ rotr 18 x ^^^ (x >>> 3)

def smallSigma1 (x : Word) : Word := rotr 17 x ^^^ rotr 19 x ^^^ (x >>> 10)

def initialState : Vector Word 8 :=
  .ofEight 0x6a09e667 0xbb67ae85 0x3c6ef372 0xa54ff53a
    0x510e527f 0x9b05688c 0x1f83d9ab 0x5be0cd19

def roundConstants : List Word :=
  [0x428a2f98, 0x71374491, 0xb5c0fbcf, 0xe9b5dba5, 0x3956c25b, 0x59f111f1, 0x923f82a4, 0xab1c5ed5,
    0xd807aa98, 0x12835b01, 0x243185be, 0x550c7dc3, 0x72be5d74, 0x80deb1fe, 0x9bdc06a7, 0xc19bf174,
    0xe49b69c1, 0xefbe4786, 0x0fc19dc6, 0x240ca1cc, 0x2de92c6f, 0x4a7484aa, 0x5cb0a9dc, 0x76f988da,
    0x983e5152, 0xa831c66d, 0xb00327c8, 0xbf597fc7, 0xc6e00bf3, 0xd5a79147, 0x06ca6351, 0x14292967,
    0x27b70a85, 0x2e1b2138, 0x4d2c6dfc, 0x53380d13, 0x650a7354, 0x766a0abb, 0x81c2c92e, 0x92722c85,
    0xa2bfe8a1, 0xa81a664b, 0xc24b8b70, 0xc76c51a3, 0xd192e819, 0xd6990624, 0xf40e3585, 0x106aa070,
    0x19a4c116, 0x1e376c08, 0x2748774c, 0x34b0bcb5, 0x391c0cb3, 0x4ed8aa4a, 0x5b9cca4f, 0x682e6ff3,
    0x748f82ee, 0x78a5636f, 0x84c87814, 0x8cc70208, 0x90befffa, 0xa4506ceb, 0xbef9a3f7, 0xc67178f2]

def roundConstant (t : Nat) : Word := roundConstants.getD t 0

/-! ## Message schedule -/

/-- The first `16 + n` schedule words of a block. -/
def expand (block : List Word) : Nat → List Word
  | 0 => block
  | n + 1 =>
      let ws := expand block n
      ws ++ [smallSigma1 (ws.getD (n + 14) 0) + ws.getD (n + 9) 0 +
        smallSigma0 (ws.getD (n + 1) 0) + ws.getD n 0]

def schedule (block : List Word) (t : Nat) : Word := (expand block t).getD t 0

theorem length_expand {block : List Word} (full : block.length = 16) (n : Nat) :
    (expand block n).length = 16 + n := by
  induction n with
  | zero => exact full
  | succ n ih => simp [expand, ih]; omega

/-- Growing the list keeps the words it already has. -/
theorem expand_getD {block : List Word} (full : block.length = 16) {t m n : Nat}
    (within : t < 16 + m) (more : m ≤ n) :
    (expand block n).getD t 0 = (expand block m).getD t 0 := by
  induction n, more using Nat.le_induction with
  | base => rfl
  | succ n more ih =>
      have inside : t < (expand block n).length := by rw [length_expand full]; omega
      rw [← ih, expand]
      simp only [List.getD_eq_getElem?_getD]
      rw [List.getElem?_append_left inside]

theorem schedule_eq {block : List Word} (full : block.length = 16) {t n : Nat}
    (within : t < 16 + n) : (expand block n).getD t 0 = schedule block t := by
  rcases Nat.le_total t n with h | h
  · exact expand_getD full (by omega) h
  · exact (expand_getD full within h).symm

theorem schedule_block {block : List Word} (full : block.length = 16) {t : Nat} (first : t < 16) :
    schedule block t = block.getD t 0 :=
  (schedule_eq full (n := 0) (by omega)).symm

/-- The four-term recurrence of section 6.2.2. -/
theorem schedule_rec {block : List Word} (full : block.length = 16) (t : Nat) :
    schedule block (t + 16) = smallSigma1 (schedule block (t + 14)) + schedule block (t + 9) +
      smallSigma0 (schedule block (t + 1)) + schedule block t := by
  have last : schedule block (t + 16) = (expand block (t + 1)).getD (t + 16) 0 :=
    (schedule_eq full (by omega)).symm
  have len := length_expand full t
  rw [last, expand]
  simp only [List.getD_eq_getElem?_getD]
  rw [List.getElem?_append_right (by omega), len]
  simp only [← List.getD_eq_getElem?_getD]
  rw [schedule_eq full (by omega), schedule_eq full (by omega), schedule_eq full (by omega),
    schedule_eq full (by omega)]
  simp [show t + 16 - (16 + t) = 0 by omega]

/-! ## Compression -/

/-- The eight working variables. -/
structure Work where
  a : Word
  b : Word
  c : Word
  d : Word
  e : Word
  f : Word
  g : Word
  h : Word
deriving DecidableEq

def Work.ofState (H : Vector Word 8) : Work :=
  ⟨H.word0, H.word1, H.word2, H.word3, H.word4, H.word5, H.word6, H.word7⟩

/-- One round; `kw` is the round constant plus the schedule word. -/
def Work.round (s : Work) (kw : Word) : Work :=
  let t₁ := s.h + bigSigma1 s.e + ch s.e s.f s.g + kw
  let t₂ := bigSigma0 s.a + maj s.a s.b s.c
  ⟨t₁ + t₂, s.a, s.b, s.c, s.d + t₁, s.e, s.f, s.g⟩

/-- Rounds `0 … n - 1` over the schedule `W`. -/
def rounds (W : Nat → Word) : Nat → Work → Work
  | 0, s => s
  | n + 1, s => (rounds W n s).round (roundConstant n + W n)

def feedForward (H : Vector Word 8) (s : Work) : Vector Word 8 :=
  .ofEight (H.word0 + s.a) (H.word1 + s.b) (H.word2 + s.c) (H.word3 + s.d) (H.word4 + s.e)
    (H.word5 + s.f) (H.word6 + s.g) (H.word7 + s.h)

def compress (H : Vector Word 8) (block : List Word) : Vector Word 8 :=
  feedForward H (rounds (schedule block) 64 (Work.ofState H))

/-! ## Whole messages -/

/-- The sixteen big-endian words of a 64-byte block. -/
def blockWords (block : List Byte) : List Word :=
  (List.range 16).map fun i => loadBe (block.drop (4 * i))

def blocks (bytes : List Byte) : List (List Byte) :=
  (List.range (bytes.length / 64)).map fun i => (bytes.drop (64 * i)).take 64

def absorb (H : Vector Word 8) (bytes : List Byte) : Vector Word 8 :=
  (blocks bytes).foldl (fun H block => compress H (blockWords block)) H

/-- A 64-bit big-endian length. -/
def be64 (n : Nat) : List Byte := toBe (BitVec.ofNat 32 (n / 2 ^ 32)) ++ toBe (BitVec.ofNat 32 n)

/-- Section 5.1.1: a one bit, zeros to 56 modulo 64, the bit length. -/
def pad (message : List Byte) : List Byte :=
  message ++ 0x80 :: List.replicate ((119 - message.length % 64) % 64) 0 ++ be64 (8 * message.length)

def sha256 (message : List Byte) : List Byte :=
  (absorb initialState (pad message)).toList.flatMap toBe

@[simp] theorem length_blockWords (block : List Byte) : (blockWords block).length = 16 := by
  simp [blockWords]

theorem length_flatMap_toBe (ws : List Word) : (ws.flatMap toBe).length = 4 * ws.length := by
  simp [List.length_flatMap]
  omega

@[simp] theorem length_sha256 (message : List Byte) : (sha256 message).length = 32 := by
  simp [sha256]

/-- Sixteen words written big-endian are read back as the block's words. -/
theorem blockWords_flatMap_toBe (ws : List Word) (full : ws.length = 16) :
    blockWords (ws.flatMap toBe) = ws := by
  apply List.ext_getElem
  · simp [full]
  · intro i hi hi'
    have := loadBe_flatMap_toBe ws i [] hi'
    simpa [blockWords] using this

theorem blocks_append (block rest : List Byte) (full : block.length = 64) :
    blocks (block ++ rest) = block :: blocks rest := by
  have count : (block ++ rest).length / 64 = rest.length / 64 + 1 := by
    rw [List.length_append, full]; omega
  rw [blocks, count, List.range_succ_eq_map, List.map_cons, List.map_map]
  congr 1
  · simp [← full]
  · apply List.map_congr_left
    intro i _
    have shift : (block ++ rest).drop (64 * (i + 1)) = rest.drop (64 * i) := by
      rw [List.drop_append, full, List.drop_eq_nil_of_le (by omega), List.nil_append]
      rfl
    simp only [Function.comp, Nat.succ_eq_add_one, shift]

theorem absorb_append (H : Vector Word 8) (block rest : List Byte) (full : block.length = 64) :
    absorb H (block ++ rest) = absorb (compress H (blockWords block)) rest := by
  simp [absorb, blocks_append block rest full]

theorem absorb_single (H : Vector Word 8) (block : List Byte) (full : block.length = 64) :
    absorb H block = compress H (blockWords block) := by
  have := absorb_append H block [] full
  simpa [absorb, blocks] using this

/-! ## The incremental interface -/

structure Ctx where
  h : Vector Word 8
  data : List Byte
  length : Nat

namespace Ctx

def init : Ctx := ⟨initialState, [], 0⟩

def update (ctx : Ctx) (bytes : List Byte) : Ctx :=
  let all := ctx.data ++ bytes
  { h := absorb ctx.h all
    data := all.drop (64 * (all.length / 64))
    length := ctx.length + bytes.length }

/-- Compress one caller-built block, with no padding or length accounting. -/
def transform (ctx : Ctx) (block : List Byte) : Ctx :=
  { ctx with h := compress ctx.h (blockWords block) }

theorem update_block (block : List Byte) (full : block.length = 64) :
    (init.update block).h = compress initialState (blockWords block) := by
  simp [update, init, absorb_single _ _ full]

end Ctx

end BtcRig.Theory.Sha256
