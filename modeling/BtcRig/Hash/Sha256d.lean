/-
# BtcRig.Hash.Sha256d — the portable double hash of an 80-byte header

The model of `sha256d.c`.  A header is hashed in two halves: `midstatePrepare`
absorbs bytes 0..63 once, and each nonce then costs two compressions, written
with hand-built padding, in one of two portable ways:

* `sha256d80MidstateHashFastC` fills one 64-word array, compresses, refills its
  first sixteen words and compresses again; the expanded part of the array is
  left over from the first hash;
* `sha256d80MidstateHashOpenssl` builds two 64-byte blocks and hands them to the
  library's block transform.

The main result is that both halves together are the FIPS 180-4 double hash of
the whole header (`midstate_hash_eq_sha256d80`), whichever backend is selected.
The library's `SHA256` and `SHA256_*` functions are those of `Theory.Sha256`.
-/
import BtcRig.Theory.Sha256

namespace BtcRig.Hash.Sha256d

open BtcRig.Theory.Words
open BtcRig.Theory.Sha256

set_option autoImplicit false

/-! ## Constants and word access -/

def kSha256InitialState : Vector Word 8 :=
  .ofEight 0x6a09e667 0xbb67ae85 0x3c6ef372 0xa54ff53a
    0x510e527f 0x9b05688c 0x1f83d9ab 0x5be0cd19

def kSha256RoundConstants : Vector Word 64 :=
  #v[0x428a2f98, 0x71374491, 0xb5c0fbcf, 0xe9b5dba5,
    0x3956c25b, 0x59f111f1, 0x923f82a4, 0xab1c5ed5,
    0xd807aa98, 0x12835b01, 0x243185be, 0x550c7dc3,
    0x72be5d74, 0x80deb1fe, 0x9bdc06a7, 0xc19bf174,
    0xe49b69c1, 0xefbe4786, 0x0fc19dc6, 0x240ca1cc,
    0x2de92c6f, 0x4a7484aa, 0x5cb0a9dc, 0x76f988da,
    0x983e5152, 0xa831c66d, 0xb00327c8, 0xbf597fc7,
    0xc6e00bf3, 0xd5a79147, 0x06ca6351, 0x14292967,
    0x27b70a85, 0x2e1b2138, 0x4d2c6dfc, 0x53380d13,
    0x650a7354, 0x766a0abb, 0x81c2c92e, 0x92722c85,
    0xa2bfe8a1, 0xa81a664b, 0xc24b8b70, 0xc76c51a3,
    0xd192e819, 0xd6990624, 0xf40e3585, 0x106aa070,
    0x19a4c116, 0x1e376c08, 0x2748774c, 0x34b0bcb5,
    0x391c0cb3, 0x4ed8aa4a, 0x5b9cca4f, 0x682e6ff3,
    0x748f82ee, 0x78a5636f, 0x84c87814, 0x8cc70208,
    0x90befffa, 0xa4506ceb, 0xbef9a3f7, 0xc67178f2]

def rotr32 (x : Word) (n : Nat) : Word := (x >>> n) ||| (x <<< (32 - n))

def bswap32 (v : Word) : Word := byteSwap v

def loadBe32 (p : List Byte) : Word := loadBe p

def putBe32 (v : Word) : List Byte := toBe v

/-- The byte at index `i - 1` is written first, then the value is shifted. -/
def putBe64Loop : Nat → BitVec 64 → List Byte → List Byte
  | 0, _, out => out
  | i + 1, v, out => putBe64Loop i (v >>> 8) (v.setWidth 8 :: out)

def putBe64 (v : BitVec 64) : List Byte := putBe64Loop 8 v []

/-! ## Compression on words -/

/-- Iteration `i` of the schedule loop, in place in the caller's array. -/
def scheduleStep (i : Nat) (low : 16 ≤ i) (high : i < 64) (w : Vector Word 64) : Vector Word 64 :=
  let s0 := rotr32 w[i - 15] 7 ^^^ rotr32 w[i - 15] 18 ^^^ (w[i - 15] >>> 3)
  let s1 := rotr32 w[i - 2] 17 ^^^ rotr32 w[i - 2] 19 ^^^ (w[i - 2] >>> 10)
  w.set i (w[i - 16] + s0 + w[i - 7] + s1)

/-- The schedule loop up to, and not including, index `16 + n`. -/
def expandWords (w : Vector Word 64) (n : Nat) (bound : n ≤ 48) : Vector Word 64 :=
  Nat.fold n (fun i _ w => scheduleStep (16 + i) (by omega) (by omega) w) w

/-- One iteration of the round loop on the locals `a … h`. -/
def roundStep (k w : Word) (v : Work) : Work :=
  let s1 := rotr32 v.e 6 ^^^ rotr32 v.e 11 ^^^ rotr32 v.e 25
  let ch := (v.e &&& v.f) ^^^ (~~~v.e &&& v.g)
  let temp1 := v.h + s1 + ch + k + w
  let s0 := rotr32 v.a 2 ^^^ rotr32 v.a 13 ^^^ rotr32 v.a 22
  let maj := (v.a &&& v.b) ^^^ (v.a &&& v.c) ^^^ (v.b &&& v.c)
  let temp2 := s0 + maj
  { h := v.g, g := v.f, f := v.e, e := v.d + temp1,
    d := v.c, c := v.b, b := v.a, a := temp1 + temp2 }

/-- The round loop up to, and not including, round `n`. -/
def roundLoop (w : Vector Word 64) (n : Nat) (bound : n ≤ 64) (v : Work) : Work :=
  Nat.fold n (fun i _ v => roundStep kSha256RoundConstants[i] w[i] v) v

/-- Both the state and the message array are updated in place. -/
def sha256CompressWords (state : Vector Word 8) (w : Vector Word 64) :
    Vector Word 8 × Vector Word 64 :=
  let w := expandWords w 48 le_rfl
  let v : Work := ⟨state.word0, state.word1, state.word2, state.word3, state.word4, state.word5,
    state.word6, state.word7⟩
  let v := roundLoop w 64 le_rfl v
  (.ofEight (state.word0 + v.a) (state.word1 + v.b) (state.word2 + v.c) (state.word3 + v.d)
    (state.word4 + v.e) (state.word5 + v.f) (state.word6 + v.g) (state.word7 + v.h), w)

/-- The assignment loop `for (i = off; i < off + n; ++i) w[i] = f(i - off)`. -/
def fillWords (w : Vector Word 64) (off n : Nat) (bound : off + n ≤ 64)
    (f : (i : Nat) → i < n → Word) : Vector Word 64 :=
  Nat.fold n (fun i hi (w : Vector Word 64) => w.set (off + i) (f i hi)) w

/-- An uninitialised message array.  Its contents never matter: a compression
reads the first sixteen words its caller wrote (`sha256CompressWords_fst`). -/
def stackWords : Vector Word 64 := Vector.replicate 64 0

def sha256CompressBlock (state : Vector Word 8) (block : List Byte) : Vector Word 8 :=
  let w := fillWords stackWords 0 16 (by omega) fun i _ => loadBe32 (block.drop (i * 4))
  (sha256CompressWords state w).1

/-! ## The midstate and its two portable backends -/

structure Sha256Midstate where
  ctx : Ctx
  secondCtx : Ctx
  fastState : Vector Word 8

def sha256d80 (header : List Byte) : List Byte :=
  let first := sha256 header
  sha256 first

def sha256d80MidstatePrepare (headerFirst64 : List Byte) : Sha256Midstate where
  ctx := Ctx.init.update headerFirst64
  secondCtx := Ctx.init
  fastState := sha256CompressBlock kSha256InitialState headerFirst64

def sha256d80MidstateHashOpenssl (state : Sha256Midstate) (tailWords : Vector Word 4) :
    Vector Word 8 :=
  let firstBlock := tailWords.toList.flatMap putBe32 ++ [0x80] ++ List.replicate 39 0 ++
    putBe64 (80 * 8)
  let ctx := state.ctx.transform firstBlock
  let secondBlock := ctx.h.toList.flatMap putBe32 ++ [0x80] ++ List.replicate 23 0 ++
    putBe64 (32 * 8)
  let secondCtx := state.secondCtx.transform secondBlock
  secondCtx.h

def sha256d80MidstateHashFastC (state : Sha256Midstate) (tailWords : Vector Word 4) :
    Vector Word 8 :=
  let w := stackWords
  let w := (((w.set 0 tailWords.quad0).set 1 tailWords.quad1).set 2 tailWords.quad2).set 3
    tailWords.quad3
  let w := w.set 4 0x80000000
  let w := fillWords w 5 10 (by omega) fun _ _ => 0
  let w := w.set 15 (80 * 8)
  let (firstState, w) := sha256CompressWords state.fastState w
  let w := fillWords w 0 8 (by omega) fun i _ => firstState[i]
  let w := w.set 8 0x80000000
  let w := fillWords w 9 6 (by omega) fun _ _ => 0
  let w := w.set 15 (32 * 8)
  (sha256CompressWords kSha256InitialState w).1

/-- The backends every build has. -/
inductive PortableBackend where
  | openssl
  | fastC
deriving DecidableEq

def sha256dTailWordsFunc : PortableBackend → Sha256Midstate → Vector Word 4 → Vector Word 8
  | .openssl => sha256d80MidstateHashOpenssl
  | .fastC => sha256d80MidstateHashFastC

def sha256dWordsToHash (words : Vector Word 8) : List Byte := words.toList.flatMap putBe32

def sha256d80MidstateHashWords (backend : PortableBackend) (state : Sha256Midstate)
    (headerTail16 : List Byte) : Vector Word 8 :=
  let tailWords := Vector.ofFn fun i : Fin 4 => loadBe32 (headerTail16.drop (i * 4))
  sha256dTailWordsFunc backend state tailWords

def sha256d80MidstateHash (backend : PortableBackend) (state : Sha256Midstate)
    (headerTail16 : List Byte) : List Byte :=
  sha256dWordsToHash (sha256d80MidstateHashWords backend state headerTail16)

/-! ## Scanning a nonce range -/

def hashWordsMeetTarget (hashWords targetWords : Vector Word 8) : Bool :=
  leFrom (fun i => (bswap32 (hashWords.toList.getD i 0)).toNat)
    (fun i => (targetWords.toList.getD i 0).toNat) 8

/-- The `on_match` calls of one scan, in order. -/
def sha256dScanNonceRangeGeneric (backend : PortableBackend) (state : Sha256Midstate)
    (baseTailWords : Vector Word 4) (targetWords : Vector Word 8)
    (startNonce nonceCount : Word) : List (Word × Vector Word 8) :=
  (List.range nonceCount.toNat).filterMap fun i =>
    let nonce := startNonce + BitVec.ofNat 32 i
    let tailWords := baseTailWords.setQuad3 (bswap32 nonce)
    let hashWords := sha256dTailWordsFunc backend state tailWords
    if hashWordsMeetTarget hashWords targetWords then some (nonce, hashWords) else none

/-! ## The compression loops are FIPS 180-4 -/

/-- The sixteen words a caller of a compression has written. -/
def message (w : Vector Word 64) : List Word := w.toList.take 16

@[simp] theorem length_message (w : Vector Word 64) : (message w).length = 16 := by
  simp [message]

theorem message_getD (w : Vector Word 64) (t : Nat) (first : t < 16) :
    (message w).getD t 0 = w[t] := by
  simp [message, List.getD_eq_getElem?_getD, first]

theorem expandWords_succ (w : Vector Word 64) (n : Nat) (bound : n + 1 ≤ 48) :
    expandWords w (n + 1) bound =
      scheduleStep (16 + n) (by omega) (by omega) (expandWords w n (by omega)) := by
  simp [expandWords, Nat.fold_succ]

theorem scheduleStep_getElem_self (i : Nat) (low : 16 ≤ i) (high : i < 64) (w : Vector Word 64) :
    (scheduleStep i low high w)[i] =
      w[i - 16] + smallSigma0 w[i - 15] + w[i - 7] + smallSigma1 w[i - 2] := by
  simp only [scheduleStep, Vector.getElem_set_self, smallSigma0, smallSigma1, rotr, rotr32]

/-- After `n` iterations the array holds the first `16 + n` schedule words. -/
theorem expandWords_getElem (w : Vector Word 64) (n : Nat) (bound : n ≤ 48) (t : Nat)
    (within : t < 16 + n) : (expandWords w n bound)[t] = schedule (message w) t := by
  induction n generalizing t with
  | zero => rw [schedule_block (length_message w) within, message_getD w t within]; rfl
  | succ n ih =>
      have low : n ≤ 48 := by omega
      rw [expandWords_succ]
      by_cases last : t = 16 + n
      · subst last
        have e₁₅ := (ih low (16 + n - 15) (by omega)).trans
          (congrArg (schedule (message w)) (show 16 + n - 15 = n + 1 by omega))
        have e₂ := (ih low (16 + n - 2) (by omega)).trans
          (congrArg (schedule (message w)) (show 16 + n - 2 = n + 14 by omega))
        have e₁₆ := (ih low (16 + n - 16) (by omega)).trans
          (congrArg (schedule (message w)) (show 16 + n - 16 = n by omega))
        have e₇ := (ih low (16 + n - 7) (by omega)).trans
          (congrArg (schedule (message w)) (show 16 + n - 7 = n + 9 by omega))
        rw [scheduleStep_getElem_self, e₁₅, e₂, e₁₆, e₇, Nat.add_comm 16 n,
          schedule_rec (length_message w)]
        ac_rfl
      · rw [scheduleStep, Vector.getElem_set_ne _ _ (by omega)]
        exact ih low t (by omega)

theorem kSha256RoundConstants_getElem (i : Nat) (hi : i < 64) :
    kSha256RoundConstants[i] = roundConstant i := by
  have all : kSha256RoundConstants.toList = roundConstants := rfl
  simp only [roundConstant, ← all, List.getD_eq_getElem?_getD]
  simp [hi]

theorem roundStep_eq_round (k w : Word) (v : Work) : roundStep k w v = v.round (k + w) := by
  have temp1 : v.h + bigSigma1 v.e + ch v.e v.f v.g + k + w =
      v.h + bigSigma1 v.e + ch v.e v.f v.g + (k + w) := BitVec.add_assoc _ k w
  simp only [Work.round, ← temp1]
  simp only [roundStep, bigSigma0, bigSigma1, ch, maj, rotr, rotr32]

/-- The loop over an array that holds the schedule is the rounds of the standard. -/
theorem roundLoop_eq_rounds (w : Vector Word 64) (W : Nat → Word)
    (same : ∀ i (hi : i < 64), w[i] = W i) (n : Nat) (bound : n ≤ 64) (v : Work) :
    roundLoop w n bound v = rounds W n v := by
  induction n with
  | zero => rfl
  | succ n ih =>
      have step : roundLoop w (n + 1) bound v =
          roundStep kSha256RoundConstants[n] w[n] (roundLoop w n (by omega) v) := by
        simp [roundLoop, Nat.fold_succ]
      rw [step, ih (by omega), rounds, roundStep_eq_round, same n (by omega),
        kSha256RoundConstants_getElem n (by omega)]

/-- The portable compression of words is the standard one. -/
theorem sha256CompressWords_fst (state : Vector Word 8) (w : Vector Word 64) :
    (sha256CompressWords state w).1 = compress state (message w) := by
  have loop := roundLoop_eq_rounds (expandWords w 48 le_rfl) (schedule (message w))
    (fun i hi => expandWords_getElem w 48 le_rfl i (by omega)) 64 le_rfl (Work.ofState state)
  rw [compress, ← loop]
  rfl

/-! ## The hand-built blocks -/

theorem fillWords_getElem (w : Vector Word 64) (off n : Nat) (bound : off + n ≤ 64)
    (f : (i : Nat) → i < n → Word) (t : Nat) (ht : t < 64) :
    (fillWords w off n bound f)[t] =
      if h : off ≤ t ∧ t < off + n then f (t - off) (by omega) else w[t] := by
  induction n with
  | zero => simp [fillWords]
  | succ n ih =>
      have step : fillWords w off (n + 1) bound f =
          (fillWords w off n (by omega) fun i hi => f i (by omega)).set (off + n)
            (f n (by omega)) := by
        simp [fillWords, Nat.fold_succ]
      by_cases last : off + n = t
      · subst last
        simp [step]
      · simp only [step, Vector.getElem_set_ne _ _ last, ih (by omega)]
        split <;> split <;> first | rfl | omega

theorem message_eq (w : Vector Word 64) :
    message w = [w[0], w[1], w[2], w[3], w[4], w[5], w[6], w[7], w[8], w[9], w[10], w[11], w[12],
      w[13], w[14], w[15]] := by
  apply List.ext_getElem
  · simp
  · intro t ht ht'
    have first : t < 16 := by simpa using ht
    simp only [message, List.getElem_take, Vector.getElem_toList]
    interval_cases t <;> rfl

/-- The padded second block of an 80-byte message with tail words `tail`. -/
def firstMessage (tail : List Word) : List Word :=
  tail ++ 0x80000000 :: List.replicate 10 0 ++ [80 * 8]

/-- The padded block of a 32-byte message with words `words`. -/
def secondMessage (words : List Word) : List Word :=
  words ++ 0x80000000 :: List.replicate 6 0 ++ [32 * 8]

/-- The double hash from a midstate, as two compressions. -/
def midstateHash (mid : Vector Word 8) (tail : Vector Word 4) : Vector Word 8 :=
  compress initialState (secondMessage (compress mid (firstMessage tail.toList)).toList)

theorem message_fillWords (block : List Byte) :
    message (fillWords stackWords 0 16 (by omega) fun i _ => loadBe32 (block.drop (i * 4))) =
      blockWords block := by
  rw [message_eq]
  simp only [fillWords_getElem, loadBe32]
  rfl

/-- The portable compression of a block is the standard one. -/
theorem sha256CompressBlock_eq (state : Vector Word 8) (block : List Byte) :
    sha256CompressBlock state block = compress state (blockWords block) := by
  rw [sha256CompressBlock, sha256CompressWords_fst, message_fillWords]

theorem toList_four {α : Type} (v : Vector α 4) : v.toList = [v.quad0, v.quad1, v.quad2, v.quad3] := by
  apply List.ext_getElem
  · simp
  · intro t ht ht'
    have small : t < 4 := by simpa using ht
    simp only [Vector.getElem_toList]
    interval_cases t <;> rfl

theorem toList_eight (v : Vector Word 8) :
    v.toList = [v.word0, v.word1, v.word2, v.word3, v.word4, v.word5, v.word6, v.word7] := by
  apply List.ext_getElem
  · simp
  · intro t ht ht'
    have small : t < 8 := by simpa using ht
    simp only [Vector.getElem_toList]
    interval_cases t <;> rfl

/-- The first block of the fast path: tail, marker, zeros, bit length. -/
theorem message_first (w : Vector Word 64) (tail : Vector Word 4) :
    message ((fillWords (((((w.set 0 tail.quad0).set 1 tail.quad1).set 2 tail.quad2).set 3 tail.quad3).set 4
      0x80000000) 5 10 (by omega) fun _ _ => 0).set 15 (80 * 8)) = firstMessage tail.toList := by
  rw [message_eq, toList_four]
  simp [fillWords_getElem, firstMessage, List.replicate]

/-- The second block, written over whatever the first compression left. -/
theorem message_second (w : Vector Word 64) (words : Vector Word 8) :
    message ((fillWords ((fillWords w 0 8 (by omega) fun i _ => words[i]).set 8 0x80000000) 9 6
      (by omega) fun _ _ => 0).set 15 (32 * 8)) = secondMessage words.toList := by
  rw [message_eq, toList_eight]
  simp [fillWords_getElem, secondMessage, List.replicate]

/-- The path with the cached midstate finishes both hashes. -/
theorem sha256d80MidstateHashFastC_eq (state : Sha256Midstate) (tail : Vector Word 4) :
    sha256d80MidstateHashFastC state tail = midstateHash state.fastState tail := by
  rw [sha256d80MidstateHashFastC]
  dsimp only
  rw [sha256CompressWords_fst, message_second, sha256CompressWords_fst, message_first, midstateHash]
  rfl

/-- The word view of the blocks the library path builds. -/
theorem blockWords_first (tail : Vector Word 4) :
    blockWords (tail.toList.flatMap putBe32 ++ [0x80] ++ List.replicate 39 0 ++ putBe64 (80 * 8)) =
      firstMessage tail.toList := by
  have padding : [0x80] ++ (List.replicate 39 0 ++ putBe64 (80 * 8)) =
      ((0x80000000 : Word) :: List.replicate 10 0 ++ [80 * 8]).flatMap toBe := by decide
  rw [List.append_assoc, List.append_assoc, padding]
  show blockWords (tail.toList.flatMap toBe ++ _) = _
  rw [← List.flatMap_append, ← List.append_assoc]
  exact blockWords_flatMap_toBe _ (by simp)

theorem blockWords_second (words : Vector Word 8) :
    blockWords (words.toList.flatMap putBe32 ++ [0x80] ++ List.replicate 23 0 ++ putBe64 (32 * 8)) =
      secondMessage words.toList := by
  have padding : [0x80] ++ (List.replicate 23 0 ++ putBe64 (32 * 8)) =
      ((0x80000000 : Word) :: List.replicate 6 0 ++ [32 * 8]).flatMap toBe := by decide
  rw [List.append_assoc, List.append_assoc, padding]
  show blockWords (words.toList.flatMap toBe ++ _) = _
  rw [← List.flatMap_append, ← List.append_assoc]
  exact blockWords_flatMap_toBe _ (by simp)

/-- So does the path over the two contexts. -/
theorem sha256d80MidstateHashOpenssl_eq (state : Sha256Midstate) (tail : Vector Word 4)
    (fresh : state.secondCtx.h = initialState) :
    sha256d80MidstateHashOpenssl state tail = midstateHash state.ctx.h tail := by
  simp only [sha256d80MidstateHashOpenssl, Ctx.transform, blockWords_first, blockWords_second, fresh,
    midstateHash]

/-! ## Both halves together -/

theorem sha256d80MidstatePrepare_fastState (first : List Byte) :
    (sha256d80MidstatePrepare first).fastState = compress initialState (blockWords first) :=
  sha256CompressBlock_eq _ _

theorem sha256d80MidstatePrepare_ctx (first : List Byte) (full : first.length = 64) :
    (sha256d80MidstatePrepare first).ctx.h = compress initialState (blockWords first) :=
  Ctx.update_block first full

/-- On a prepared midstate the portable backends compute the same words. -/
theorem sha256dTailWordsFunc_prepare (backend : PortableBackend) (first : List Byte)
    (full : first.length = 64) (tail : Vector Word 4) :
    sha256dTailWordsFunc backend (sha256d80MidstatePrepare first) tail =
      midstateHash (compress initialState (blockWords first)) tail := by
  cases backend with
  | openssl =>
      rw [sha256dTailWordsFunc, sha256d80MidstateHashOpenssl_eq _ _ rfl,
        sha256d80MidstatePrepare_ctx first full]
  | fastC =>
      rw [sha256dTailWordsFunc, sha256d80MidstateHashFastC_eq, sha256d80MidstatePrepare_fastState]

/-- The four big-endian words of a 16-byte tail. -/
def tailWordsOf (tail : List Byte) : Vector Word 4 :=
  Vector.ofFn fun i : Fin 4 => loadBe32 (tail.drop (i * 4))

theorem tailWordsOf_flatMap (tail : List Byte) (size : tail.length = 16) :
    (tailWordsOf tail).toList.flatMap toBe = tail := by
  have words : (tailWordsOf tail).toList = (List.range 4).map fun i => loadBe (tail.drop (4 * i)) := by
    rw [toList_four]
    simp [tailWordsOf, loadBe32]
    rfl
  rw [words]
  exact flatMap_toBe_loadBe 4 tail size

/-- A header is two blocks. -/
theorem sha256_eighty (first tail : List Byte) (full : first.length = 64) (size : tail.length = 16) :
    sha256 (first ++ tail) =
      (compress (compress initialState (blockWords first))
        (firstMessage (tailWordsOf tail).toList)).toList.flatMap toBe := by
  have padding : 0x80 :: List.replicate 39 0 ++ be64 640 =
      ((0x80000000 : Word) :: List.replicate 10 0 ++ [80 * 8]).flatMap toBe := by decide
  have size80 : (first ++ tail).length = 80 := by rw [List.length_append, full, size]
  have padded : pad (first ++ tail) =
      first ++ (firstMessage (tailWordsOf tail).toList).flatMap toBe := by
    calc pad (first ++ tail)
        = first ++ tail ++ (0x80 :: List.replicate 39 0 ++ be64 640) := by
          rw [pad, size80, List.append_assoc]
      _ = first ++ (firstMessage (tailWordsOf tail).toList).flatMap toBe := by
          rw [padding, firstMessage, List.append_assoc (tailWordsOf tail).toList,
            @List.flatMap_append _ _ (tailWordsOf tail).toList, tailWordsOf_flatMap tail size,
            List.append_assoc]
  rw [sha256, padded, absorb_append _ _ _ full, absorb_single _ _ (by simp [firstMessage]),
    blockWords_flatMap_toBe _ (by simp [firstMessage])]

/-- A digest is one. -/
theorem sha256_thirtyTwo (words : Vector Word 8) :
    sha256 (words.toList.flatMap toBe) =
      (compress initialState (secondMessage words.toList)).toList.flatMap toBe := by
  have padding : 0x80 :: List.replicate 23 0 ++ be64 256 =
      ((0x80000000 : Word) :: List.replicate 6 0 ++ [32 * 8]).flatMap toBe := by decide
  have size32 : (words.toList.flatMap toBe).length = 32 := by rw [length_flatMap_toBe]; simp
  have padded : pad (words.toList.flatMap toBe) = (secondMessage words.toList).flatMap toBe := by
    calc pad (words.toList.flatMap toBe)
        = words.toList.flatMap toBe ++ (0x80 :: List.replicate 23 0 ++ be64 256) := by
          rw [pad, size32, List.append_assoc]
      _ = (secondMessage words.toList).flatMap toBe := by
          rw [padding, secondMessage, List.append_assoc,
            @List.flatMap_append _ _ words.toList]
  rw [sha256, padded, absorb_single _ _ (by simp [secondMessage]),
    blockWords_flatMap_toBe _ (by simp [secondMessage])]

theorem sha256d80_eq_midstateHash (first tail : List Byte) (full : first.length = 64)
    (size : tail.length = 16) :
    sha256d80 (first ++ tail) =
      sha256dWordsToHash (midstateHash (compress initialState (blockWords first))
        (tailWordsOf tail)) := by
  rw [sha256d80, sha256_eighty first tail full size, sha256_thirtyTwo]
  rfl

/-- **The split double hash is the double hash.**  For every header and either
portable backend, preparing a midstate from bytes 0..63 and finishing it with
bytes 64..79 gives `SHA256(SHA256(header))`. -/
theorem midstate_hash_eq_sha256d80 (backend : PortableBackend) (header : Vector Byte 80) :
    sha256d80MidstateHash backend (sha256d80MidstatePrepare (header.toList.take 64))
        (header.toList.drop 64) = sha256d80 header.toList ∧
      sha256d80 header.toList = sha256 (sha256 header.toList) := by
  have full : (header.toList.take 64).length = 64 := by simp
  have size : (header.toList.drop 64).length = 16 := by simp
  refine ⟨?_, rfl⟩
  conv_rhs => rw [← List.take_append_drop 64 header.toList]
  rw [sha256d80_eq_midstateHash _ _ full size, sha256d80MidstateHash, sha256d80MidstateHashWords,
    sha256dTailWordsFunc_prepare backend _ full]
  rfl

end BtcRig.Hash.Sha256d
