/-
# BtcRig.Hash.ShaNi — the x86 SHA-extension scanner

The model of `sha256d_x86_sha_ni.c`: the two-register image of the state, the
sixteen four-round groups with their software-pipelined schedule, the same with
two interleaved instances, and the scan loop that hashes nonces in pairs with a
single-lane epilogue for an odd count.  The file's copies of the constant tables,
of `bswap32` and of `hash_words_meet_target` are textually those of `sha256d.c`
and are not repeated here.

* `sha256X86CompressVec_eq`, `sha256X86CompressVec2_eq` — both compressors are the
  FIPS 180-4 compression of the block their four message registers hold;
* `x86_scan_eq_generic_scan` — the scan reports what the generic
  scan reports on the fast path, in the same order, for every 32-bit count.
-/
import BtcRig.Theory.X86Sha
import BtcRig.Hash.Scan

namespace BtcRig.Hash.ShaNi

open BtcRig.Theory.Words
open BtcRig.Theory.Sha256
open BtcRig.Theory.X86Sha
open BtcRig.Hash.Sha256d
open BtcRig.Hash.Scan

set_option autoImplicit false

/-! ## The routines -/

def makeU32x4 (a b c d : Word) : M128 := mmSetEpi32 d c b a

def makeK (offset : Nat) : M128 :=
  mmSetEpi32 (kSha256RoundConstants.toList.getD (offset + 3) 0)
    (kSha256RoundConstants.toList.getD (offset + 2) 0)
    (kSha256RoundConstants.toList.getD (offset + 1) 0)
    (kSha256RoundConstants.toList.getD offset 0)

/-- Four words of memory in one register, the lowest address in lane 0. -/
def mmLoaduSi128 (w₀ w₁ w₂ w₃ : Word) : M128 := mmSetEpi32 w₃ w₂ w₁ w₀

def sha256X86LoadStateVec (state : Vector Word 8) : M128 × M128 :=
  let tmp := mmLoaduSi128 state.word0 state.word1 state.word2 state.word3
  let state1 := mmLoaduSi128 state.word4 state.word5 state.word6 state.word7
  let tmp := mmShuffleEpi32 tmp 0xb1
  let state1 := mmShuffleEpi32 state1 0x1b
  let state0 := mmAlignrEpi8 tmp state1 8
  let state1 := mmBlendEpi16 state1 tmp 0xf0
  (state0, state1)

def sha256X86StoreStateVec (state0 state1 : M128) : Vector Word 8 :=
  let tmp := mmShuffleEpi32 state0 0x1b
  let state1 := mmShuffleEpi32 state1 0xb1
  let state0 := mmBlendEpi16 tmp state1 0xf0
  let state1 := mmAlignrEpi8 state1 tmp 8
  #v[lane state0 0, lane state0 1, lane state0 2, lane state0 3,
    lane state1 0, lane state1 1, lane state1 2, lane state1 3]

/-- The macro `BTC_SHA256_X86_ROUND4_MSG`, on `(state0, state1)`. -/
def btcSha256X86Round4Msg (regs : M128 × M128) (msgVar : M128) (offset : Nat) : M128 × M128 :=
  let msg := mmAddEpi32 msgVar (makeK offset)
  let state1 := mmSha256rnds2Epu32 regs.2 regs.1 msg
  let msg := mmShuffleEpi32 msg 0x0e
  let state0 := mmSha256rnds2Epu32 regs.1 state1 msg
  (state0, state1)

/-- The macro `BTC_SHA256_X86_MSG2`; the result is the new `dst`. -/
def btcSha256X86Msg2 (dst prev last : M128) : M128 :=
  let tmp := mmAlignrEpi8 last prev 4
  let dst := mmAddEpi32 dst tmp
  mmSha256msg2Epu32 dst last

def sha256X86CompressVec (state : Vector Word 8) (msg0 msg1 msg2 msg3 : M128) : Vector Word 8 :=
  let regs := sha256X86LoadStateVec state
  let save := regs
  let regs := btcSha256X86Round4Msg regs msg0 0
  let regs := btcSha256X86Round4Msg regs msg1 4
  let msg0 := mmSha256msg1Epu32 msg0 msg1
  let regs := btcSha256X86Round4Msg regs msg2 8
  let msg1 := mmSha256msg1Epu32 msg1 msg2
  let regs := btcSha256X86Round4Msg regs msg3 12
  let msg0 := btcSha256X86Msg2 msg0 msg2 msg3
  let msg2 := mmSha256msg1Epu32 msg2 msg3

  let regs := btcSha256X86Round4Msg regs msg0 16
  let msg1 := btcSha256X86Msg2 msg1 msg3 msg0
  let msg3 := mmSha256msg1Epu32 msg3 msg0
  let regs := btcSha256X86Round4Msg regs msg1 20
  let msg2 := btcSha256X86Msg2 msg2 msg0 msg1
  let msg0 := mmSha256msg1Epu32 msg0 msg1
  let regs := btcSha256X86Round4Msg regs msg2 24
  let msg3 := btcSha256X86Msg2 msg3 msg1 msg2
  let msg1 := mmSha256msg1Epu32 msg1 msg2
  let regs := btcSha256X86Round4Msg regs msg3 28
  let msg0 := btcSha256X86Msg2 msg0 msg2 msg3
  let msg2 := mmSha256msg1Epu32 msg2 msg3

  let regs := btcSha256X86Round4Msg regs msg0 32
  let msg1 := btcSha256X86Msg2 msg1 msg3 msg0
  let msg3 := mmSha256msg1Epu32 msg3 msg0
  let regs := btcSha256X86Round4Msg regs msg1 36
  let msg2 := btcSha256X86Msg2 msg2 msg0 msg1
  let msg0 := mmSha256msg1Epu32 msg0 msg1
  let regs := btcSha256X86Round4Msg regs msg2 40
  let msg3 := btcSha256X86Msg2 msg3 msg1 msg2
  let msg1 := mmSha256msg1Epu32 msg1 msg2
  let regs := btcSha256X86Round4Msg regs msg3 44
  let msg0 := btcSha256X86Msg2 msg0 msg2 msg3
  let msg2 := mmSha256msg1Epu32 msg2 msg3

  let regs := btcSha256X86Round4Msg regs msg0 48
  let msg1 := btcSha256X86Msg2 msg1 msg3 msg0
  let msg3 := mmSha256msg1Epu32 msg3 msg0
  let regs := btcSha256X86Round4Msg regs msg1 52
  let msg2 := btcSha256X86Msg2 msg2 msg0 msg1
  let regs := btcSha256X86Round4Msg regs msg2 56
  let msg3 := btcSha256X86Msg2 msg3 msg1 msg2
  let regs := btcSha256X86Round4Msg regs msg3 60

  let state0 := mmAddEpi32 regs.1 save.1
  let state1 := mmAddEpi32 regs.2 save.2
  sha256X86StoreStateVec state0 state1

/-- The macro `BTC_SHA256_X86_ROUND4_MSG2` on the registers of both instances. -/
def btcSha256X86Round4Msg2 (aRegs bRegs : M128 × M128) (aMsgVar bMsgVar : M128) (offset : Nat) :
    (M128 × M128) × (M128 × M128) :=
  let k := makeK offset
  let aMsg := mmAddEpi32 aMsgVar k
  let bMsg := mmAddEpi32 bMsgVar k
  let aState1 := mmSha256rnds2Epu32 aRegs.2 aRegs.1 aMsg
  let bState1 := mmSha256rnds2Epu32 bRegs.2 bRegs.1 bMsg
  let aMsg := mmShuffleEpi32 aMsg 0x0e
  let bMsg := mmShuffleEpi32 bMsg 0x0e
  let aState0 := mmSha256rnds2Epu32 aRegs.1 aState1 aMsg
  let bState0 := mmSha256rnds2Epu32 bRegs.1 bState1 bMsg
  ((aState0, aState1), (bState0, bState1))

/-- The macro `BTC_SHA256_X86_MSG2_PAIR`; the result is the new pair of `dst`s. -/
def btcSha256X86Msg2Pair (aDst bDst aPrev bPrev aLast bLast : M128) : M128 × M128 :=
  let aTmp := mmAlignrEpi8 aLast aPrev 4
  let bTmp := mmAlignrEpi8 bLast bPrev 4
  let aDst := mmAddEpi32 aDst aTmp
  let bDst := mmAddEpi32 bDst bTmp
  (mmSha256msg2Epu32 aDst aLast, mmSha256msg2Epu32 bDst bLast)

def sha256X86CompressVec2 (stateA stateB : Vector Word 8) (aMsg0 aMsg1 aMsg2 aMsg3 : M128)
    (bMsg0 bMsg1 bMsg2 bMsg3 : M128) : Vector Word 8 × Vector Word 8 :=
  let aRegs := sha256X86LoadStateVec stateA
  let bRegs := sha256X86LoadStateVec stateB
  let aSave := aRegs
  let bSave := bRegs
  let (aRegs, bRegs) := btcSha256X86Round4Msg2 aRegs bRegs aMsg0 bMsg0 0
  let (aRegs, bRegs) := btcSha256X86Round4Msg2 aRegs bRegs aMsg1 bMsg1 4
  let aMsg0 := mmSha256msg1Epu32 aMsg0 aMsg1
  let bMsg0 := mmSha256msg1Epu32 bMsg0 bMsg1
  let (aRegs, bRegs) := btcSha256X86Round4Msg2 aRegs bRegs aMsg2 bMsg2 8
  let aMsg1 := mmSha256msg1Epu32 aMsg1 aMsg2
  let bMsg1 := mmSha256msg1Epu32 bMsg1 bMsg2
  let (aRegs, bRegs) := btcSha256X86Round4Msg2 aRegs bRegs aMsg3 bMsg3 12
  let (aMsg0, bMsg0) := btcSha256X86Msg2Pair aMsg0 bMsg0 aMsg2 bMsg2 aMsg3 bMsg3
  let aMsg2 := mmSha256msg1Epu32 aMsg2 aMsg3
  let bMsg2 := mmSha256msg1Epu32 bMsg2 bMsg3

  let (aRegs, bRegs) := btcSha256X86Round4Msg2 aRegs bRegs aMsg0 bMsg0 16
  let (aMsg1, bMsg1) := btcSha256X86Msg2Pair aMsg1 bMsg1 aMsg3 bMsg3 aMsg0 bMsg0
  let aMsg3 := mmSha256msg1Epu32 aMsg3 aMsg0
  let bMsg3 := mmSha256msg1Epu32 bMsg3 bMsg0
  let (aRegs, bRegs) := btcSha256X86Round4Msg2 aRegs bRegs aMsg1 bMsg1 20
  let (aMsg2, bMsg2) := btcSha256X86Msg2Pair aMsg2 bMsg2 aMsg0 bMsg0 aMsg1 bMsg1
  let aMsg0 := mmSha256msg1Epu32 aMsg0 aMsg1
  let bMsg0 := mmSha256msg1Epu32 bMsg0 bMsg1
  let (aRegs, bRegs) := btcSha256X86Round4Msg2 aRegs bRegs aMsg2 bMsg2 24
  let (aMsg3, bMsg3) := btcSha256X86Msg2Pair aMsg3 bMsg3 aMsg1 bMsg1 aMsg2 bMsg2
  let aMsg1 := mmSha256msg1Epu32 aMsg1 aMsg2
  let bMsg1 := mmSha256msg1Epu32 bMsg1 bMsg2
  let (aRegs, bRegs) := btcSha256X86Round4Msg2 aRegs bRegs aMsg3 bMsg3 28
  let (aMsg0, bMsg0) := btcSha256X86Msg2Pair aMsg0 bMsg0 aMsg2 bMsg2 aMsg3 bMsg3
  let aMsg2 := mmSha256msg1Epu32 aMsg2 aMsg3
  let bMsg2 := mmSha256msg1Epu32 bMsg2 bMsg3

  let (aRegs, bRegs) := btcSha256X86Round4Msg2 aRegs bRegs aMsg0 bMsg0 32
  let (aMsg1, bMsg1) := btcSha256X86Msg2Pair aMsg1 bMsg1 aMsg3 bMsg3 aMsg0 bMsg0
  let aMsg3 := mmSha256msg1Epu32 aMsg3 aMsg0
  let bMsg3 := mmSha256msg1Epu32 bMsg3 bMsg0
  let (aRegs, bRegs) := btcSha256X86Round4Msg2 aRegs bRegs aMsg1 bMsg1 36
  let (aMsg2, bMsg2) := btcSha256X86Msg2Pair aMsg2 bMsg2 aMsg0 bMsg0 aMsg1 bMsg1
  let aMsg0 := mmSha256msg1Epu32 aMsg0 aMsg1
  let bMsg0 := mmSha256msg1Epu32 bMsg0 bMsg1
  let (aRegs, bRegs) := btcSha256X86Round4Msg2 aRegs bRegs aMsg2 bMsg2 40
  let (aMsg3, bMsg3) := btcSha256X86Msg2Pair aMsg3 bMsg3 aMsg1 bMsg1 aMsg2 bMsg2
  let aMsg1 := mmSha256msg1Epu32 aMsg1 aMsg2
  let bMsg1 := mmSha256msg1Epu32 bMsg1 bMsg2
  let (aRegs, bRegs) := btcSha256X86Round4Msg2 aRegs bRegs aMsg3 bMsg3 44
  let (aMsg0, bMsg0) := btcSha256X86Msg2Pair aMsg0 bMsg0 aMsg2 bMsg2 aMsg3 bMsg3
  let aMsg2 := mmSha256msg1Epu32 aMsg2 aMsg3
  let bMsg2 := mmSha256msg1Epu32 bMsg2 bMsg3

  let (aRegs, bRegs) := btcSha256X86Round4Msg2 aRegs bRegs aMsg0 bMsg0 48
  let (aMsg1, bMsg1) := btcSha256X86Msg2Pair aMsg1 bMsg1 aMsg3 bMsg3 aMsg0 bMsg0
  let aMsg3 := mmSha256msg1Epu32 aMsg3 aMsg0
  let bMsg3 := mmSha256msg1Epu32 bMsg3 bMsg0
  let (aRegs, bRegs) := btcSha256X86Round4Msg2 aRegs bRegs aMsg1 bMsg1 52
  let (aMsg2, bMsg2) := btcSha256X86Msg2Pair aMsg2 bMsg2 aMsg0 bMsg0 aMsg1 bMsg1
  let (aRegs, bRegs) := btcSha256X86Round4Msg2 aRegs bRegs aMsg2 bMsg2 56
  let (aMsg3, bMsg3) := btcSha256X86Msg2Pair aMsg3 bMsg3 aMsg1 bMsg1 aMsg2 bMsg2
  let (aRegs, bRegs) := btcSha256X86Round4Msg2 aRegs bRegs aMsg3 bMsg3 60

  let aState0 := mmAddEpi32 aRegs.1 aSave.1
  let aState1 := mmAddEpi32 aRegs.2 aSave.2
  let bState0 := mmAddEpi32 bRegs.1 bSave.1
  let bState1 := mmAddEpi32 bRegs.2 bSave.2
  (sha256X86StoreStateVec aState0 aState1, sha256X86StoreStateVec bState0 bState1)

def sha256dHashTailWordsX86Raw (state : Sha256Midstate) (tailWords : Vector Word 4) :
    Vector Word 8 :=
  let firstState := sha256X86CompressVec state.fastState
    (makeU32x4 tailWords.quad0 tailWords.quad1 tailWords.quad2 tailWords.quad3)
    (makeU32x4 0x80000000 0 0 0) mmSetzeroSi128 (makeU32x4 0 0 0 (80 * 8))
  sha256X86CompressVec kSha256InitialState
    (makeU32x4 firstState.word0 firstState.word1 firstState.word2 firstState.word3)
    (makeU32x4 firstState.word4 firstState.word5 firstState.word6 firstState.word7)
    (makeU32x4 0x80000000 0 0 0) (makeU32x4 0 0 0 (32 * 8))

def sha256dHashNoncePairX86Raw (state : Sha256Midstate) (tail0 tail1 tail2 nonceA nonceB : Word) :
    Vector Word 8 × Vector Word 8 :=
  let (firstA, firstB) := sha256X86CompressVec2 state.fastState state.fastState
    (makeU32x4 tail0 tail1 tail2 (bswap32 nonceA))
    (makeU32x4 0x80000000 0 0 0) mmSetzeroSi128 (makeU32x4 0 0 0 (80 * 8))
    (makeU32x4 tail0 tail1 tail2 (bswap32 nonceB))
    (makeU32x4 0x80000000 0 0 0) mmSetzeroSi128 (makeU32x4 0 0 0 (80 * 8))
  sha256X86CompressVec2 kSha256InitialState kSha256InitialState
    (makeU32x4 firstA.word0 firstA.word1 firstA.word2 firstA.word3)
    (makeU32x4 firstA.word4 firstA.word5 firstA.word6 firstA.word7)
    (makeU32x4 0x80000000 0 0 0) (makeU32x4 0 0 0 (32 * 8))
    (makeU32x4 firstB.word0 firstB.word1 firstB.word2 firstB.word3)
    (makeU32x4 firstB.word4 firstB.word5 firstB.word6 firstB.word7)
    (makeU32x4 0x80000000 0 0 0) (makeU32x4 0 0 0 (32 * 8))

/-- Iteration `j` of the pair loop is index `i = 2 * j`. -/
def sha256dScanNonceRangeX86ShaNi (state : Sha256Midstate) (baseTailWords : Vector Word 4)
    (targetWords : Vector Word 8) (startNonce nonceCount : Word) : List (Word × Vector Word 8) :=
  let pairedCount := nonceCount &&& ~~~(1 : Word)
  let pairs := (List.range (pairedCount.toNat / 2)).flatMap fun j =>
    let nonceA := startNonce + BitVec.ofNat 32 (2 * j)
    let nonceB := nonceA + 1
    let (hashWordsA, hashWordsB) := sha256dHashNoncePairX86Raw state baseTailWords.quad0
      baseTailWords.quad1 baseTailWords.quad2 nonceA nonceB
    reportMatch targetWords nonceA hashWordsA ++ reportMatch targetWords nonceB hashWordsB
  let last := if pairedCount < nonceCount then
      let nonce := startNonce + pairedCount
      let tailWords := baseTailWords.setQuad3 (bswap32 nonce)
      reportMatch targetWords nonce (sha256dHashTailWordsX86Raw state tailWords)
    else []
  pairs ++ last

/-! ## State registers and round groups -/

/-- The register pair that holds the working variables `s`. -/
def image (s : Work) : M128 × M128 := (abef s, cdgh s)

/-- The loaded registers are the image of the working variables. -/
theorem sha256X86LoadStateVec_eq (state : Vector Word 8) :
    sha256X86LoadStateVec state = image (Work.ofState state) := by
  simp only [sha256X86LoadStateVec, mmLoaduSi128, mmShuffleEpi32_b1, mmShuffleEpi32_1b,
    mmAlignrEpi8_eight, mmBlendEpi16_high, image, abef, cdgh, Work.ofState]

/-- The final additions and the store are the feed-forward. -/
theorem sha256X86StoreStateVec_eq (state : Vector Word 8) (s : Work) :
    sha256X86StoreStateVec (mmAddEpi32 (abef s) (abef (Work.ofState state)))
      (mmAddEpi32 (cdgh s) (cdgh (Work.ofState state))) = feedForward state s := by
  simp only [sha256X86StoreStateVec, mmAddEpi32, abef, cdgh, Work.ofState, lane_set_zero,
    lane_set_one, lane_set_two, lane_set_three, mmShuffleEpi32_b1, mmShuffleEpi32_1b,
    mmAlignrEpi8_eight, mmBlendEpi16_high, feedForward, BitVec.add_comm]

theorem makeK_eq (t : Nat) : makeK t = quad roundConstant t := by
  have table : kSha256RoundConstants.toList = roundConstants := rfl
  simp only [makeK, quad, roundConstant, table]

/-- A call of the round macro is four rounds. -/
theorem btcSha256X86Round4Msg_eq (W : Nat → Word) (s : Work) (t : Nat) :
    btcSha256X86Round4Msg (image (rounds W t s)) (quad W t) t = image (rounds W (t + 4) s) := by
  have sum : mmAddEpi32 (quad W t) (makeK t) = quad (fun t => roundConstant t + W t) t := by
    simp only [makeK_eq, mmAddEpi32, quad, lane_set_zero, lane_set_one, lane_set_two,
      lane_set_three, BitVec.add_comm]
  simp only [btcSha256X86Round4Msg, image, sum]
  simp only [quad, mmShuffleEpi32_0e]
  rw [mmSha256rnds2Epu32_eq, ← cdgh_round_round (rounds W t s) (roundConstant t + W t)
    (roundConstant (t + 1) + W (t + 1)), mmSha256rnds2Epu32_eq]
  rfl

/-- The second message instruction completes the next four words. -/
theorem btcSha256X86Msg2_eq {block : List Word} (full : block.length = 16) (t : Nat) :
    btcSha256X86Msg2 (partialQuad (schedule block) t) (quad (schedule block) (t + 8))
      (quad (schedule block) (t + 12)) = quad (schedule block) (t + 16) :=
  mmSha256msg2Epu32_quad _ (schedule_rec full) t

/-! ## The two compressors -/

/-- The compression with the SHA instructions is the standard one. -/
theorem sha256X86CompressVec_eq {block : List Word} (full : block.length = 16)
    (state : Vector Word 8) :
    sha256X86CompressVec state (quad (schedule block) 0) (quad (schedule block) 4)
      (quad (schedule block) 8) (quad (schedule block) 12) = compress state block := by
  have load : sha256X86LoadStateVec state =
      image (rounds (schedule block) 0 (Work.ofState state)) := sha256X86LoadStateVec_eq state
  have save : rounds (schedule block) 0 (Work.ofState state) = Work.ofState state := rfl
  -- Each group rewrites with the lemma at its own round number, in program order.
  simp only [sha256X86CompressVec, load, btcSha256X86Round4Msg_eq, mmSha256msg1Epu32_quad,
    btcSha256X86Msg2_eq full, Nat.reduceAdd]
  rw [save]
  exact sha256X86StoreStateVec_eq state _

/-- Two compressions side by side are two compressions. -/
theorem sha256X86CompressVec2_eq {blockA blockB : List Word} (fullA : blockA.length = 16)
    (fullB : blockB.length = 16) (stateA stateB : Vector Word 8) :
    sha256X86CompressVec2 stateA stateB
        (quad (schedule blockA) 0) (quad (schedule blockA) 4)
        (quad (schedule blockA) 8) (quad (schedule blockA) 12)
        (quad (schedule blockB) 0) (quad (schedule blockB) 4)
        (quad (schedule blockB) 8) (quad (schedule blockB) 12) =
      (compress stateA blockA, compress stateB blockB) := by
  have load : ∀ (state : Vector Word 8) (block : List Word), sha256X86LoadStateVec state =
      image (rounds (schedule block) 0 (Work.ofState state)) :=
    fun state _ => sha256X86LoadStateVec_eq state
  have groups : ∀ aRegs bRegs aMsg bMsg t, btcSha256X86Round4Msg2 aRegs bRegs aMsg bMsg t =
      (btcSha256X86Round4Msg aRegs aMsg t, btcSha256X86Round4Msg bRegs bMsg t) :=
    fun _ _ _ _ _ => rfl
  have schedules : ∀ aDst bDst aPrev bPrev aLast bLast,
      btcSha256X86Msg2Pair aDst bDst aPrev bPrev aLast bLast =
        (btcSha256X86Msg2 aDst aPrev aLast, btcSha256X86Msg2 bDst bPrev bLast) :=
    fun _ _ _ _ _ _ => rfl
  have save : ∀ (state : Vector Word 8) (block : List Word),
      rounds (schedule block) 0 (Work.ofState state) = Work.ofState state := fun _ _ => rfl
  simp only [sha256X86CompressVec2, load stateA blockA, load stateB blockB, groups, schedules,
    btcSha256X86Round4Msg_eq, mmSha256msg1Epu32_quad, btcSha256X86Msg2_eq fullA,
    btcSha256X86Msg2_eq fullB, Nat.reduceAdd]
  rw [save stateA blockA, save stateB blockB]
  exact Prod.ext (sha256X86StoreStateVec_eq stateA _) (sha256X86StoreStateVec_eq stateB _)

/-! ## The double hash of a tail and of a pair of nonces -/

theorem quad_schedule {block : List Word} (full : block.length = 16) (t : Nat) (first : t + 3 < 16) :
    quad (schedule block) t =
      makeU32x4 (block.getD t 0) (block.getD (t + 1) 0) (block.getD (t + 2) 0)
        (block.getD (t + 3) 0) := by
  simp only [quad, makeU32x4]
  rw [schedule_block full (by omega), schedule_block full (by omega), schedule_block full (by omega),
    schedule_block full (by omega)]

/-- The registers the first hash starts from hold its padded block. -/
theorem quad_firstMessage (tail : Vector Word 4) :
    quad (schedule (firstMessage tail.toList)) 0 = makeU32x4 tail.quad0 tail.quad1 tail.quad2 tail.quad3 ∧
      quad (schedule (firstMessage tail.toList)) 4 = makeU32x4 0x80000000 0 0 0 ∧
      quad (schedule (firstMessage tail.toList)) 8 = mmSetzeroSi128 ∧
      quad (schedule (firstMessage tail.toList)) 12 = makeU32x4 0 0 0 (80 * 8) := by
  have full := length_firstMessage tail
  rw [mmSetzeroSi128_eq, quad_schedule full 0 (by omega), quad_schedule full 4 (by omega),
    quad_schedule full 8 (by omega), quad_schedule full 12 (by omega), toList_four]
  exact ⟨rfl, rfl, rfl, rfl⟩

theorem quad_secondMessage (words : Vector Word 8) :
    quad (schedule (secondMessage words.toList)) 0 =
        makeU32x4 words.word0 words.word1 words.word2 words.word3 ∧
      quad (schedule (secondMessage words.toList)) 4 =
        makeU32x4 words.word4 words.word5 words.word6 words.word7 ∧
      quad (schedule (secondMessage words.toList)) 8 = makeU32x4 0x80000000 0 0 0 ∧
      quad (schedule (secondMessage words.toList)) 12 = makeU32x4 0 0 0 (32 * 8) := by
  have full := length_secondMessage words
  rw [quad_schedule full 0 (by omega), quad_schedule full 4 (by omega),
    quad_schedule full 8 (by omega), quad_schedule full 12 (by omega), toList_eight]
  exact ⟨rfl, rfl, rfl, rfl⟩

theorem sha256dHashTailWordsX86Raw_eq (state : Sha256Midstate) (tail : Vector Word 4) :
    sha256dHashTailWordsX86Raw state tail = midstateHash state.fastState tail := by
  obtain ⟨f₀, f₄, f₈, f₁₂⟩ := quad_firstMessage tail
  have first := sha256X86CompressVec_eq (length_firstMessage tail) state.fastState
  rw [f₀, f₄, f₈, f₁₂] at first
  obtain ⟨s₀, s₄, s₈, s₁₂⟩ := quad_secondMessage (compress state.fastState (firstMessage tail.toList))
  have second := sha256X86CompressVec_eq
    (length_secondMessage (compress state.fastState (firstMessage tail.toList))) kSha256InitialState
  rw [s₀, s₄, s₈, s₁₂] at second
  simp only [sha256dHashTailWordsX86Raw, first, second]
  rfl

/-- A pair of nonces is hashed as each alone. -/
theorem sha256dHashNoncePairX86Raw_eq (state : Sha256Midstate) (base : Vector Word 4)
    (nonceA nonceB : Word) :
    sha256dHashNoncePairX86Raw state base.quad0 base.quad1 base.quad2 nonceA nonceB =
      (midstateHash state.fastState (withNonce base nonceA),
        midstateHash state.fastState (withNonce base nonceB)) := by
  obtain ⟨a₀, a₄, a₈, a₁₂⟩ := quad_firstMessage (withNonce base nonceA)
  obtain ⟨b₀, b₄, b₈, b₁₂⟩ := quad_firstMessage (withNonce base nonceB)
  have first := sha256X86CompressVec2_eq (length_firstMessage (withNonce base nonceA))
    (length_firstMessage (withNonce base nonceB)) state.fastState state.fastState
  rw [a₀, a₄, a₈, a₁₂, b₀, b₄, b₈, b₁₂] at first
  obtain ⟨c₀, c₄, c₈, c₁₂⟩ := quad_secondMessage
    (compress state.fastState (firstMessage (withNonce base nonceA).toList))
  obtain ⟨d₀, d₄, d₈, d₁₂⟩ := quad_secondMessage
    (compress state.fastState (firstMessage (withNonce base nonceB).toList))
  have second := sha256X86CompressVec2_eq
    (length_secondMessage (compress state.fastState (firstMessage (withNonce base nonceA).toList)))
    (length_secondMessage (compress state.fastState (firstMessage (withNonce base nonceB).toList)))
    kSha256InitialState kSha256InitialState
  rw [c₀, c₄, c₈, c₁₂, d₀, d₄, d₈, d₁₂] at second
  simp only [withNonce, Vector.getElem_set_self, Vector.getElem_set_ne _ _ (show 3 ≠ 0 by omega),
    Vector.getElem_set_ne _ _ (show 3 ≠ 1 by omega),
    Vector.getElem_set_ne _ _ (show 3 ≠ 2 by omega)] at first second
  simp only [sha256dHashNoncePairX86Raw, first, second]
  rfl

/-! ## The scan -/

/-- So the scan makes the same reports in the same order. -/
theorem sha256dScanNonceRangeX86ShaNi_eq (state : Sha256Midstate) (base : Vector Word 4)
    (target : Vector Word 8) (start count : Word) :
    sha256dScanNonceRangeX86ShaNi state base target start count =
      sha256dScanNonceRangeGeneric .fastC state base target start count := by
  have loop : sha256dScanNonceRangeX86ShaNi state base target start count =
      pairedScan (fun a b => sha256dHashNoncePairX86Raw state base.quad0 base.quad1 base.quad2 a b)
        (fun nonce => sha256dHashTailWordsX86Raw state (base.setQuad3 (bswap32 nonce)))
        target start count := by
    simp only [sha256dScanNonceRangeX86ShaNi, pairedScan]
  rw [loop]
  exact pairedScan_eq_generic state base target start count
    (fun a b => sha256dHashNoncePairX86Raw_eq state base a b)
    (fun nonce => sha256dHashTailWordsX86Raw_eq state (withNonce base nonce))

/-- Register `i` of a block held in the first sixteen words of an array. -/
def messageReg (w : Vector Word 64) (i : Fin 4) : M128 :=
  makeU32x4 w[4 * i.val] w[4 * i.val + 1] w[4 * i.val + 2] w[4 * i.val + 3]

theorem quad_message (w : Vector Word 64) (i : Fin 4) :
    quad (schedule (message w)) (4 * i.val) = messageReg w i := by
  rw [quad_schedule (length_message w) (4 * i.val) (by omega), message_getD w _ (by omega),
    message_getD w _ (by omega), message_getD w _ (by omega), message_getD w _ (by omega)]
  rfl

theorem sha256X86CompressVec_eq_words (state : Vector Word 8) (w : Vector Word 64) :
    sha256X86CompressVec state (messageReg w 0) (messageReg w 1) (messageReg w 2) (messageReg w 3) =
      (sha256CompressWords state w).1 := by
  rw [sha256CompressWords_fst, ← sha256X86CompressVec_eq (length_message w), ← quad_message w 0,
    ← quad_message w 1, ← quad_message w 2, ← quad_message w 3]
  rfl

theorem sha256X86CompressVec2_eq_words (stateA stateB : Vector Word 8) (wA wB : Vector Word 64) :
    sha256X86CompressVec2 stateA stateB
        (messageReg wA 0) (messageReg wA 1) (messageReg wA 2) (messageReg wA 3)
        (messageReg wB 0) (messageReg wB 1) (messageReg wB 2) (messageReg wB 3) =
      ((sha256CompressWords stateA wA).1, (sha256CompressWords stateB wB).1) := by
  rw [sha256CompressWords_fst, sha256CompressWords_fst,
    ← sha256X86CompressVec2_eq (length_message wA) (length_message wB), ← quad_message wA 0,
    ← quad_message wA 1, ← quad_message wA 2, ← quad_message wA 3, ← quad_message wB 0,
    ← quad_message wB 1, ← quad_message wB 2, ← quad_message wB 3]
  rfl

/-- **The SHA-extension scan is the generic scan.**  For every midstate, tail,
target, start and 32-bit count the reported nonces and hash words are the same
and in the same order; and each compressor is `sha256_compress_words` on the
blocks its registers hold. -/
theorem x86_scan_eq_generic_scan (state : Sha256Midstate) (base : Vector Word 4)
    (target : Vector Word 8) (start count : Word) :
    sha256dScanNonceRangeX86ShaNi state base target start count =
        sha256dScanNonceRangeGeneric .fastC state base target start count ∧
      (∀ (chain : Vector Word 8) (w : Vector Word 64),
        sha256X86CompressVec chain (messageReg w 0) (messageReg w 1) (messageReg w 2)
          (messageReg w 3) = (sha256CompressWords chain w).1) ∧
      ∀ (chainA chainB : Vector Word 8) (wA wB : Vector Word 64),
        sha256X86CompressVec2 chainA chainB
            (messageReg wA 0) (messageReg wA 1) (messageReg wA 2) (messageReg wA 3)
            (messageReg wB 0) (messageReg wB 1) (messageReg wB 2) (messageReg wB 3) =
          ((sha256CompressWords chainA wA).1, (sha256CompressWords chainB wB).1) :=
  ⟨sha256dScanNonceRangeX86ShaNi_eq state base target start count, sha256X86CompressVec_eq_words,
    sha256X86CompressVec2_eq_words⟩

end BtcRig.Hash.ShaNi
