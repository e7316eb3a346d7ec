/-
# BtcRig.Gpu.Cuda — the CUDA device routines

The routines of `cuda_sha256d_kernel.cu`: one nonce with the plain logical functions, one
nonce with the `lop3` instruction in their place, and two nonces whose rounds are
interleaved.  `lop3B32` is the documented meaning of the instruction: bit by bit, the
three operand bits select a bit of the table.

`cuda_routines_report` is the result: each routine stores a match exactly when the
portable hash meets the target, and stores the portable words.
-/
import BtcRig.Gpu.Device

namespace BtcRig.Gpu.Cuda

open BtcRig.Theory.Words
open BtcRig.Theory.Sha256
open BtcRig.Theory.Unrolled
open BtcRig.Gpu.Macros
open BtcRig.Gpu.Device
open BtcRig.Hash.Sha256d (Sha256Midstate)

set_option autoImplicit false

/-! ## The instruction -/

/-- `lop3.b32 d, a, b, c, immLut`: where the bits of `a`, `b`, `c` spell the number `n`,
the result has bit `n` of the table. -/
def lop3B32 (a b c : Word) (immLut : BitVec 8) : Word :=
  let minterm := fun n : Nat =>
    (if n.testBit 2 then a else ~~~a) &&& (if n.testBit 1 then b else ~~~b) &&&
      (if n.testBit 0 then c else ~~~c)
  (List.range 8).foldl (fun d n => if immLut.getLsbD n then d ||| minterm n else d) 0

def chLop3 (x y z : Word) : Word := lop3B32 x y z 0xca

def majLop3 (x y z : Word) : Word := lop3B32 x y z 0xe8

/-- `CH` and `MAJ` as redefined before `scan_one_nonce_lop3`. -/
def lop3Logic : Logic := ⟨chLop3, majLop3⟩

/-! ## The routines -/

def sha256Compress (logic : Logic) (s : Vector Word 8) (w : Vector Word 16) : Vector Word 8 :=
  unrolledCompress logic s w

/-- The arguments of one `ROUND_PAIR`, which are those of two `ROUND`s with one constant. -/
structure RoundPairCall where
  a : Reg
  b : Reg
  c : Reg
  d : Reg
  e : Reg
  f : Reg
  g : Reg
  h : Reg
  w : Operand
  aa : Reg
  bb : Reg
  cc : Reg
  dd : Reg
  ee : Reg
  ff : Reg
  gg : Reg
  hh : Reg
  ww : Operand
  k : Word
deriving DecidableEq

def RoundPairCall.first (call : RoundPairCall) : RoundCall :=
  ⟨call.a, call.b, call.c, call.d, call.e, call.f, call.g, call.h, call.w, call.k⟩

def RoundPairCall.second (call : RoundPairCall) : RoundCall :=
  ⟨call.aa, call.bb, call.cc, call.dd, call.ee, call.ff, call.gg, call.hh, call.ww, call.k⟩

/-- The macro `ROUND_PAIR`, on the two instances' own variables. -/
def roundPair (l : Locals × Locals) (call : RoundPairCall) : Locals × Locals :=
  let first := round plainLogic l.1 call.first
  let second := round plainLogic l.2 call.second
  (first, second)

section

open Reg

/-- The rounds of `SHA256_COMPRESS_DUAL`.  The second instance's registers `aa … hh` and
schedule `x0 … x15` are written with the names of the first. -/
def sha256RoundPairs : List RoundPairCall := [
  ⟨a, b, c, d, e, f, g, h, .w 0,
    a, b, c, d, e, f, g, h, .w 0, 0x428a2f98⟩,
  ⟨h, a, b, c, d, e, f, g, .w 1,
    h, a, b, c, d, e, f, g, .w 1, 0x71374491⟩,
  ⟨g, h, a, b, c, d, e, f, .w 2,
    g, h, a, b, c, d, e, f, .w 2, 0xb5c0fbcf⟩,
  ⟨f, g, h, a, b, c, d, e, .w 3,
    f, g, h, a, b, c, d, e, .w 3, 0xe9b5dba5⟩,
  ⟨e, f, g, h, a, b, c, d, .w 4,
    e, f, g, h, a, b, c, d, .w 4, 0x3956c25b⟩,
  ⟨d, e, f, g, h, a, b, c, .w 5,
    d, e, f, g, h, a, b, c, .w 5, 0x59f111f1⟩,
  ⟨c, d, e, f, g, h, a, b, .w 6,
    c, d, e, f, g, h, a, b, .w 6, 0x923f82a4⟩,
  ⟨b, c, d, e, f, g, h, a, .w 7,
    b, c, d, e, f, g, h, a, .w 7, 0xab1c5ed5⟩,
  ⟨a, b, c, d, e, f, g, h, .w 8,
    a, b, c, d, e, f, g, h, .w 8, 0xd807aa98⟩,
  ⟨h, a, b, c, d, e, f, g, .w 9,
    h, a, b, c, d, e, f, g, .w 9, 0x12835b01⟩,
  ⟨g, h, a, b, c, d, e, f, .w 10,
    g, h, a, b, c, d, e, f, .w 10, 0x243185be⟩,
  ⟨f, g, h, a, b, c, d, e, .w 11,
    f, g, h, a, b, c, d, e, .w 11, 0x550c7dc3⟩,
  ⟨e, f, g, h, a, b, c, d, .w 12,
    e, f, g, h, a, b, c, d, .w 12, 0x72be5d74⟩,
  ⟨d, e, f, g, h, a, b, c, .w 13,
    d, e, f, g, h, a, b, c, .w 13, 0x80deb1fe⟩,
  ⟨c, d, e, f, g, h, a, b, .w 14,
    c, d, e, f, g, h, a, b, .w 14, 0x9bdc06a7⟩,
  ⟨b, c, d, e, f, g, h, a, .w 15,
    b, c, d, e, f, g, h, a, .w 15, 0xc19bf174⟩,
  ⟨a, b, c, d, e, f, g, h, .msg 0 1 9 14,
    a, b, c, d, e, f, g, h, .msg 0 1 9 14, 0xe49b69c1⟩,
  ⟨h, a, b, c, d, e, f, g, .msg 1 2 10 15,
    h, a, b, c, d, e, f, g, .msg 1 2 10 15, 0xefbe4786⟩,
  ⟨g, h, a, b, c, d, e, f, .msg 2 3 11 0,
    g, h, a, b, c, d, e, f, .msg 2 3 11 0, 0x0fc19dc6⟩,
  ⟨f, g, h, a, b, c, d, e, .msg 3 4 12 1,
    f, g, h, a, b, c, d, e, .msg 3 4 12 1, 0x240ca1cc⟩,
  ⟨e, f, g, h, a, b, c, d, .msg 4 5 13 2,
    e, f, g, h, a, b, c, d, .msg 4 5 13 2, 0x2de92c6f⟩,
  ⟨d, e, f, g, h, a, b, c, .msg 5 6 14 3,
    d, e, f, g, h, a, b, c, .msg 5 6 14 3, 0x4a7484aa⟩,
  ⟨c, d, e, f, g, h, a, b, .msg 6 7 15 4,
    c, d, e, f, g, h, a, b, .msg 6 7 15 4, 0x5cb0a9dc⟩,
  ⟨b, c, d, e, f, g, h, a, .msg 7 8 0 5,
    b, c, d, e, f, g, h, a, .msg 7 8 0 5, 0x76f988da⟩,
  ⟨a, b, c, d, e, f, g, h, .msg 8 9 1 6,
    a, b, c, d, e, f, g, h, .msg 8 9 1 6, 0x983e5152⟩,
  ⟨h, a, b, c, d, e, f, g, .msg 9 10 2 7,
    h, a, b, c, d, e, f, g, .msg 9 10 2 7, 0xa831c66d⟩,
  ⟨g, h, a, b, c, d, e, f, .msg 10 11 3 8,
    g, h, a, b, c, d, e, f, .msg 10 11 3 8, 0xb00327c8⟩,
  ⟨f, g, h, a, b, c, d, e, .msg 11 12 4 9,
    f, g, h, a, b, c, d, e, .msg 11 12 4 9, 0xbf597fc7⟩,
  ⟨e, f, g, h, a, b, c, d, .msg 12 13 5 10,
    e, f, g, h, a, b, c, d, .msg 12 13 5 10, 0xc6e00bf3⟩,
  ⟨d, e, f, g, h, a, b, c, .msg 13 14 6 11,
    d, e, f, g, h, a, b, c, .msg 13 14 6 11, 0xd5a79147⟩,
  ⟨c, d, e, f, g, h, a, b, .msg 14 15 7 12,
    c, d, e, f, g, h, a, b, .msg 14 15 7 12, 0x06ca6351⟩,
  ⟨b, c, d, e, f, g, h, a, .msg 15 0 8 13,
    b, c, d, e, f, g, h, a, .msg 15 0 8 13, 0x14292967⟩,
  ⟨a, b, c, d, e, f, g, h, .msg 0 1 9 14,
    a, b, c, d, e, f, g, h, .msg 0 1 9 14, 0x27b70a85⟩,
  ⟨h, a, b, c, d, e, f, g, .msg 1 2 10 15,
    h, a, b, c, d, e, f, g, .msg 1 2 10 15, 0x2e1b2138⟩,
  ⟨g, h, a, b, c, d, e, f, .msg 2 3 11 0,
    g, h, a, b, c, d, e, f, .msg 2 3 11 0, 0x4d2c6dfc⟩,
  ⟨f, g, h, a, b, c, d, e, .msg 3 4 12 1,
    f, g, h, a, b, c, d, e, .msg 3 4 12 1, 0x53380d13⟩,
  ⟨e, f, g, h, a, b, c, d, .msg 4 5 13 2,
    e, f, g, h, a, b, c, d, .msg 4 5 13 2, 0x650a7354⟩,
  ⟨d, e, f, g, h, a, b, c, .msg 5 6 14 3,
    d, e, f, g, h, a, b, c, .msg 5 6 14 3, 0x766a0abb⟩,
  ⟨c, d, e, f, g, h, a, b, .msg 6 7 15 4,
    c, d, e, f, g, h, a, b, .msg 6 7 15 4, 0x81c2c92e⟩,
  ⟨b, c, d, e, f, g, h, a, .msg 7 8 0 5,
    b, c, d, e, f, g, h, a, .msg 7 8 0 5, 0x92722c85⟩,
  ⟨a, b, c, d, e, f, g, h, .msg 8 9 1 6,
    a, b, c, d, e, f, g, h, .msg 8 9 1 6, 0xa2bfe8a1⟩,
  ⟨h, a, b, c, d, e, f, g, .msg 9 10 2 7,
    h, a, b, c, d, e, f, g, .msg 9 10 2 7, 0xa81a664b⟩,
  ⟨g, h, a, b, c, d, e, f, .msg 10 11 3 8,
    g, h, a, b, c, d, e, f, .msg 10 11 3 8, 0xc24b8b70⟩,
  ⟨f, g, h, a, b, c, d, e, .msg 11 12 4 9,
    f, g, h, a, b, c, d, e, .msg 11 12 4 9, 0xc76c51a3⟩,
  ⟨e, f, g, h, a, b, c, d, .msg 12 13 5 10,
    e, f, g, h, a, b, c, d, .msg 12 13 5 10, 0xd192e819⟩,
  ⟨d, e, f, g, h, a, b, c, .msg 13 14 6 11,
    d, e, f, g, h, a, b, c, .msg 13 14 6 11, 0xd6990624⟩,
  ⟨c, d, e, f, g, h, a, b, .msg 14 15 7 12,
    c, d, e, f, g, h, a, b, .msg 14 15 7 12, 0xf40e3585⟩,
  ⟨b, c, d, e, f, g, h, a, .msg 15 0 8 13,
    b, c, d, e, f, g, h, a, .msg 15 0 8 13, 0x106aa070⟩,
  ⟨a, b, c, d, e, f, g, h, .msg 0 1 9 14,
    a, b, c, d, e, f, g, h, .msg 0 1 9 14, 0x19a4c116⟩,
  ⟨h, a, b, c, d, e, f, g, .msg 1 2 10 15,
    h, a, b, c, d, e, f, g, .msg 1 2 10 15, 0x1e376c08⟩,
  ⟨g, h, a, b, c, d, e, f, .msg 2 3 11 0,
    g, h, a, b, c, d, e, f, .msg 2 3 11 0, 0x2748774c⟩,
  ⟨f, g, h, a, b, c, d, e, .msg 3 4 12 1,
    f, g, h, a, b, c, d, e, .msg 3 4 12 1, 0x34b0bcb5⟩,
  ⟨e, f, g, h, a, b, c, d, .msg 4 5 13 2,
    e, f, g, h, a, b, c, d, .msg 4 5 13 2, 0x391c0cb3⟩,
  ⟨d, e, f, g, h, a, b, c, .msg 5 6 14 3,
    d, e, f, g, h, a, b, c, .msg 5 6 14 3, 0x4ed8aa4a⟩,
  ⟨c, d, e, f, g, h, a, b, .msg 6 7 15 4,
    c, d, e, f, g, h, a, b, .msg 6 7 15 4, 0x5b9cca4f⟩,
  ⟨b, c, d, e, f, g, h, a, .msg 7 8 0 5,
    b, c, d, e, f, g, h, a, .msg 7 8 0 5, 0x682e6ff3⟩,
  ⟨a, b, c, d, e, f, g, h, .msg 8 9 1 6,
    a, b, c, d, e, f, g, h, .msg 8 9 1 6, 0x748f82ee⟩,
  ⟨h, a, b, c, d, e, f, g, .msg 9 10 2 7,
    h, a, b, c, d, e, f, g, .msg 9 10 2 7, 0x78a5636f⟩,
  ⟨g, h, a, b, c, d, e, f, .msg 10 11 3 8,
    g, h, a, b, c, d, e, f, .msg 10 11 3 8, 0x84c87814⟩,
  ⟨f, g, h, a, b, c, d, e, .msg 11 12 4 9,
    f, g, h, a, b, c, d, e, .msg 11 12 4 9, 0x8cc70208⟩,
  ⟨e, f, g, h, a, b, c, d, .msg 12 13 5 10,
    e, f, g, h, a, b, c, d, .msg 12 13 5 10, 0x90befffa⟩,
  ⟨d, e, f, g, h, a, b, c, .msg 13 14 6 11,
    d, e, f, g, h, a, b, c, .msg 13 14 6 11, 0xa4506ceb⟩,
  ⟨c, d, e, f, g, h, a, b, .msg 14 15 7 12,
    c, d, e, f, g, h, a, b, .msg 14 15 7 12, 0xbef9a3f7⟩,
  ⟨b, c, d, e, f, g, h, a, .msg 15 0 8 13,
    b, c, d, e, f, g, h, a, .msg 15 0 8 13, 0xc67178f2⟩
]

end

def sha256CompressDual (s q : Vector Word 8) (w x : Vector Word 16) : Vector Word 8 × Vector Word 8 :=
  let l : Locals × Locals := (⟨loadRegs s, w⟩, ⟨loadRegs q, x⟩)
  let l := sha256RoundPairs.foldl roundPair l
  (addRegs s l.1.regs, addRegs q l.2.regs)

def scanOneNonce : Vector Word 8 → Vector Word 8 → Word → Word → Word → Word → Word → Results → Results :=
  scanOneNonceWith (sha256Compress plainLogic)

def scanOneNonceLop3 : Vector Word 8 → Vector Word 8 → Word → Word → Word → Word → Word → Results → Results :=
  scanOneNonceWith (sha256Compress lop3Logic)

def scanTwoNonces (fast target : Vector Word 8) (tail0 tail1 tail2 nonce0 nonce1 maxResults : Word)
    (r : Results) : Results :=
  let (s, q) := sha256CompressDual fast fast (firstWords tail0 tail1 tail2 nonce0)
    (firstWords tail0 tail1 tail2 nonce1)
  let (h, y) := sha256CompressDual initialWords initialWords (secondWords s) (secondWords q)
  let r := storeIfMet target nonce0 h maxResults r
  storeIfMet target nonce1 y maxResults r

/-! ## The logical functions of the instruction -/

theorem chLop3_eq (x y z : Word) : chLop3 x y z = ch x y z := by
  have minterms : chLop3 x y z = 0 ||| (~~~x &&& ~~~y &&& z) ||| (~~~x &&& y &&& z) ||| (x &&& y &&& ~~~z) |||
      (x &&& y &&& z) := rfl
  rw [minterms, ch]
  ext i hi
  simp only [BitVec.getElem_or, BitVec.getElem_xor, BitVec.getElem_and, BitVec.getElem_not]
  cases x[i] <;> cases y[i] <;> cases z[i] <;> simp

theorem majLop3_eq (x y z : Word) : majLop3 x y z = maj x y z := by
  have minterms : majLop3 x y z = 0 ||| (~~~x &&& y &&& z) ||| (x &&& ~~~y &&& z) ||| (x &&& y &&& ~~~z) |||
      (x &&& y &&& z) := rfl
  rw [minterms, maj]
  ext i hi
  simp only [BitVec.getElem_or, BitVec.getElem_xor, BitVec.getElem_and, BitVec.getElem_not]
  cases x[i] <;> cases y[i] <;> cases z[i] <;> simp

/-- The two tables of `lop3.b32` are the functions of the standard. -/
theorem lop3Logic_standard : lop3Logic.Standard := ⟨chLop3_eq, majLop3_eq⟩

/-! ## Two instances at once -/

/-- Either half of the paired calls is the unrolled sequence. -/
theorem sha256RoundPairs_first : sha256RoundPairs.map RoundPairCall.first = sha256Rounds := by decide

theorem sha256RoundPairs_second : sha256RoundPairs.map RoundPairCall.second = sha256Rounds := by decide

/-- The two instances share no variable, so interleaving their rounds changes nothing. -/
theorem foldl_roundPair (calls : List RoundPairCall) (l : Locals × Locals) :
    calls.foldl roundPair l =
      ((calls.map RoundPairCall.first).foldl (round plainLogic) l.1,
        (calls.map RoundPairCall.second).foldl (round plainLogic) l.2) := by
  induction calls generalizing l with
  | nil => rfl
  | cons call calls ih =>
      rw [List.foldl_cons, ih]
      rfl

/-- Two compressions in one routine are two compressions. -/
theorem sha256CompressDual_eq (s q : Vector Word 8) (w x : Vector Word 16) :
    sha256CompressDual s q w x = (sha256Compress plainLogic s w, sha256Compress plainLogic q x) := by
  rw [sha256CompressDual, foldl_roundPair, sha256RoundPairs_first, sha256RoundPairs_second]
  rfl

theorem sha256Compress_compresses {logic : Logic} (standard : logic.Standard) :
    Compresses (sha256Compress logic) := unrolledCompress_eq standard

/-- Two nonces in one routine are scanned one after the other. -/
theorem scanTwoNonces_eq (fast target : Vector Word 8) (tail0 tail1 tail2 nonce0 nonce1 maxResults : Word)
    (r : Results) :
    scanTwoNonces fast target tail0 tail1 tail2 nonce0 nonce1 maxResults r =
      scanOneNonce fast target tail0 tail1 tail2 nonce1 maxResults
        (scanOneNonce fast target tail0 tail1 tail2 nonce0 maxResults r) := by
  simp only [scanTwoNonces, sha256CompressDual_eq, scanOneNonce, scanOneNonceWith]

/-- **Every CUDA routine stores exactly the matches of the portable hash.** -/
theorem cuda_routines_report (state : Sha256Midstate) (target : Vector Word 8)
    (tail0 tail1 tail2 maxResults : Word) (r : Results) :
    (∀ nonce, Reports target nonce (fastWords state tail0 tail1 tail2 nonce) maxResults r
      (scanOneNonce state.fastState target tail0 tail1 tail2 nonce maxResults r)) ∧
    (∀ nonce, Reports target nonce (fastWords state tail0 tail1 tail2 nonce) maxResults r
      (scanOneNonceLop3 state.fastState target tail0 tail1 tail2 nonce maxResults r)) ∧
    ∀ nonce0 nonce1, ∃ between,
      Reports target nonce0 (fastWords state tail0 tail1 tail2 nonce0) maxResults r between ∧
        Reports target nonce1 (fastWords state tail0 tail1 tail2 nonce1) maxResults between
          (scanTwoNonces state.fastState target tail0 tail1 tail2 nonce0 nonce1 maxResults r) := by
  have plain := sha256Compress_compresses plainLogic_standard
  have lop3 := sha256Compress_compresses lop3Logic_standard
  have one (nonce : Word) (r : Results) := scanOneNonceWith_reports plain state target tail0 tail1 tail2
    nonce maxResults r
  refine ⟨fun nonce => one nonce r, fun nonce => ?_, fun nonce0 nonce1 => ?_⟩
  · exact scanOneNonceWith_reports lop3 state target tail0 tail1 tail2 nonce maxResults r
  · rw [scanTwoNonces_eq]
    exact ⟨_, one nonce0 r, one nonce1 _⟩

end BtcRig.Gpu.Cuda
