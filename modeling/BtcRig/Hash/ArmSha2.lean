/-
# BtcRig.Hash.ArmSha2 — the Arm SHA-2 scanner

The model of `sha256d_arm_sha2.c`: two compressors for one instance (the padded tail
block from a midstate, the padded 32-byte block from the initial state), the same two
for a pair of instances, and the scan loop that hashes nonces in pairs.  Rounds whose
message words are padding take a precomputed sum of constant and word.  The file's
copies of the constant tables, of `bswap32` and of `hash_words_meet_target` are
textually those of `sha256d.c` and are not repeated here.

* `sha256ArmCompressBtcTail_eq`, `sha256ArmCompressSecondHash_eq` and their pair
  versions — each compressor is the FIPS 180-4 compression of its padded block;
* `arm_scan_eq_generic_scan` — the scan reports what the generic scan reports on the
  fast path, in the same order, for every 32-bit count.
-/
import BtcRig.Theory.ArmSha
import BtcRig.Hash.Scan

namespace BtcRig.Hash.ArmSha2

open BtcRig.Theory.Words
open BtcRig.Theory.Sha256
open BtcRig.Theory.ArmSha
open BtcRig.Hash.Sha256d
open BtcRig.Hash.Scan

set_option autoImplicit false

/-! ## The routines -/

def kFirstTailWk1 : Vector Word 4 := #v[0xb956c25b, 0x59f111f1, 0x923f82a4, 0xab1c5ed5]

def kFirstTailWk2 : Vector Word 4 := #v[0xd807aa98, 0x12835b01, 0x243185be, 0x550c7dc3]

def kFirstTailWk3 : Vector Word 4 := #v[0x72be5d74, 0x80deb1fe, 0x9bdc06a7, 0xc19bf3f4]

def kSecondHashWk2 : Vector Word 4 := #v[0x5807aa98, 0x12835b01, 0x243185be, 0x550c7dc3]

def kSecondHashWk3 : Vector Word 4 := #v[0x72be5d74, 0x80deb1fe, 0x9bdc06a7, 0xc19bf274]

def makeU32x4 (a b c d : Word) : U32x4 := ⟨a, b, c, d⟩

/-- `vld1q_u32(&k_sha256_round_constants[offset])`. -/
def loadK (offset : Nat) : U32x4 :=
  makeU32x4 (kSha256RoundConstants.toList.getD offset 0)
    (kSha256RoundConstants.toList.getD (offset + 1) 0)
    (kSha256RoundConstants.toList.getD (offset + 2) 0)
    (kSha256RoundConstants.toList.getD (offset + 3) 0)

/-- Two `vst1q_u32`, to `out[0]` and `out[4]`. -/
def storeState (regs : U32x4 × U32x4) : Vector Word 8 :=
  #v[regs.1.l0, regs.1.l1, regs.1.l2, regs.1.l3, regs.2.l0, regs.2.l1, regs.2.l2, regs.2.l3]

/-- The macro `BTC_SHA256_ARM_ROUND4_WK`, on `(abcd, efgh)`. -/
def btcSha256ArmRound4Wk (regs : U32x4 × U32x4) (wk : U32x4) : U32x4 × U32x4 :=
  let (abcdVar, efghVar) := regs
  let abcdPrev := abcdVar
  let abcdVar := vsha256hqU32 abcdPrev efghVar wk
  let efghVar := vsha256h2qU32 efghVar abcdPrev wk
  (abcdVar, efghVar)

/-- The macro `BTC_SHA256_ARM_ROUND4`. -/
def btcSha256ArmRound4 (regs : U32x4 × U32x4) (schedule : U32x4) (offset : Nat) : U32x4 × U32x4 :=
  let (abcdVar, efghVar) := regs
  let wk := vaddqU32 schedule (loadK offset)
  let abcdPrev := abcdVar
  let abcdVar := vsha256hqU32 abcdPrev efghVar wk
  let efghVar := vsha256h2qU32 efghVar abcdPrev wk
  (abcdVar, efghVar)

/-- The locals of a compressor. -/
structure Lane where
  regs : U32x4 × U32x4
  sched0 : U32x4
  sched1 : U32x4
  sched2 : U32x4
  sched3 : U32x4

/-- The macro `BTC_SHA256_ARM_ROUNDS16`. -/
def btcSha256ArmRounds16 (l : Lane) (offset : Nat) : Lane :=
  let sched0 := vsha256su1qU32 (vsha256su0qU32 l.sched0 l.sched1) l.sched2 l.sched3
  let regs := btcSha256ArmRound4 l.regs sched0 offset
  let sched1 := vsha256su1qU32 (vsha256su0qU32 l.sched1 l.sched2) l.sched3 sched0
  let regs := btcSha256ArmRound4 regs sched1 (offset + 4)
  let sched2 := vsha256su1qU32 (vsha256su0qU32 l.sched2 l.sched3) sched0 sched1
  let regs := btcSha256ArmRound4 regs sched2 (offset + 8)
  let sched3 := vsha256su1qU32 (vsha256su0qU32 l.sched3 sched0) sched1 sched2
  let regs := btcSha256ArmRound4 regs sched3 (offset + 12)
  ⟨regs, sched0, sched1, sched2, sched3⟩

def sha256ArmCompressBtcTail (startAbcd startEfgh sched0 : U32x4) : U32x4 × U32x4 :=
  let sched1 := makeU32x4 0x80000000 0 0 0
  let sched2 := makeU32x4 0 0 0 0
  let sched3 := makeU32x4 0 0 0 (80 * 8)
  let regs := btcSha256ArmRound4 (startAbcd, startEfgh) sched0 0
  let regs := btcSha256ArmRound4Wk regs (vld1qU32 kFirstTailWk1)
  let regs := btcSha256ArmRound4Wk regs (vld1qU32 kFirstTailWk2)
  let regs := btcSha256ArmRound4Wk regs (vld1qU32 kFirstTailWk3)
  let l := btcSha256ArmRounds16 ⟨regs, sched0, sched1, sched2, sched3⟩ 16
  let l := btcSha256ArmRounds16 l 32
  let l := btcSha256ArmRounds16 l 48
  (vaddqU32 l.regs.1 startAbcd, vaddqU32 l.regs.2 startEfgh)

def sha256ArmCompressSecondHash (sched0 sched1 : U32x4) : U32x4 × U32x4 :=
  let abcdOrig := makeU32x4 kSha256InitialState.word0 kSha256InitialState.word1 kSha256InitialState.word2
    kSha256InitialState.word3
  let efghOrig := makeU32x4 kSha256InitialState.word4 kSha256InitialState.word5 kSha256InitialState.word6
    kSha256InitialState.word7
  let sched2 := makeU32x4 0x80000000 0 0 0
  let sched3 := makeU32x4 0 0 0 (32 * 8)
  let regs := btcSha256ArmRound4 (abcdOrig, efghOrig) sched0 0
  let regs := btcSha256ArmRound4 regs sched1 4
  let regs := btcSha256ArmRound4Wk regs (vld1qU32 kSecondHashWk2)
  let regs := btcSha256ArmRound4Wk regs (vld1qU32 kSecondHashWk3)
  let l := btcSha256ArmRounds16 ⟨regs, sched0, sched1, sched2, sched3⟩ 16
  let l := btcSha256ArmRounds16 l 32
  let l := btcSha256ArmRounds16 l 48
  (vaddqU32 l.regs.1 abcdOrig, vaddqU32 l.regs.2 efghOrig)

/-- The macro `BTC_SHA256_ARM_ROUND4_WK_PAIR`, on the registers `a` and `b`. -/
def btcSha256ArmRound4WkPair (aRegs bRegs : U32x4 × U32x4) (wk : U32x4) :
    (U32x4 × U32x4) × U32x4 × U32x4 :=
  let (aAbcd, aEfgh) := aRegs
  let (bAbcd, bEfgh) := bRegs
  let aAbcdPrev := aAbcd
  let bAbcdPrev := bAbcd
  let aAbcd := vsha256hqU32 aAbcdPrev aEfgh wk
  let bAbcd := vsha256hqU32 bAbcdPrev bEfgh wk
  let aEfgh := vsha256h2qU32 aEfgh aAbcdPrev wk
  let bEfgh := vsha256h2qU32 bEfgh bAbcdPrev wk
  ((aAbcd, aEfgh), bAbcd, bEfgh)

/-- The macro `BTC_SHA256_ARM_ROUND4_PAIR`. -/
def btcSha256ArmRound4Pair (aRegs bRegs : U32x4 × U32x4) (aSchedule bSchedule : U32x4) (offset : Nat) :
    (U32x4 × U32x4) × U32x4 × U32x4 :=
  let (aAbcd, aEfgh) := aRegs
  let (bAbcd, bEfgh) := bRegs
  let k := loadK offset
  let aWk := vaddqU32 aSchedule k
  let bWk := vaddqU32 bSchedule k
  let aAbcdPrev := aAbcd
  let bAbcdPrev := bAbcd
  let aAbcd := vsha256hqU32 aAbcdPrev aEfgh aWk
  let bAbcd := vsha256hqU32 bAbcdPrev bEfgh bWk
  let aEfgh := vsha256h2qU32 aEfgh aAbcdPrev aWk
  let bEfgh := vsha256h2qU32 bEfgh bAbcdPrev bWk
  ((aAbcd, aEfgh), bAbcd, bEfgh)

/-- The macro `BTC_SHA256_ARM_ROUNDS16_PAIR`. -/
def btcSha256ArmRounds16Pair (a b : Lane) (offset : Nat) : Lane × Lane :=
  let aSched0 := vsha256su1qU32 (vsha256su0qU32 a.sched0 a.sched1) a.sched2 a.sched3
  let bSched0 := vsha256su1qU32 (vsha256su0qU32 b.sched0 b.sched1) b.sched2 b.sched3
  let (aRegs, bRegs) := btcSha256ArmRound4Pair a.regs b.regs aSched0 bSched0 offset
  let aSched1 := vsha256su1qU32 (vsha256su0qU32 a.sched1 a.sched2) a.sched3 aSched0
  let bSched1 := vsha256su1qU32 (vsha256su0qU32 b.sched1 b.sched2) b.sched3 bSched0
  let (aRegs, bRegs) := btcSha256ArmRound4Pair aRegs bRegs aSched1 bSched1 (offset + 4)
  let aSched2 := vsha256su1qU32 (vsha256su0qU32 a.sched2 a.sched3) aSched0 aSched1
  let bSched2 := vsha256su1qU32 (vsha256su0qU32 b.sched2 b.sched3) bSched0 bSched1
  let (aRegs, bRegs) := btcSha256ArmRound4Pair aRegs bRegs aSched2 bSched2 (offset + 8)
  let aSched3 := vsha256su1qU32 (vsha256su0qU32 a.sched3 aSched0) aSched1 aSched2
  let bSched3 := vsha256su1qU32 (vsha256su0qU32 b.sched3 bSched0) bSched1 bSched2
  let (aRegs, bRegs) := btcSha256ArmRound4Pair aRegs bRegs aSched3 bSched3 (offset + 12)
  (⟨aRegs, aSched0, aSched1, aSched2, aSched3⟩, ⟨bRegs, bSched0, bSched1, bSched2, bSched3⟩)

def sha256ArmCompressBtcTail2 (startAbcd startEfgh aSched0 bSched0 : U32x4) :
    (U32x4 × U32x4) × U32x4 × U32x4 :=
  let aSched1 := makeU32x4 0x80000000 0 0 0
  let aSched2 := makeU32x4 0 0 0 0
  let aSched3 := makeU32x4 0 0 0 (80 * 8)
  let bSched1 := aSched1
  let bSched2 := aSched2
  let bSched3 := aSched3
  let (aRegs, bRegs) := btcSha256ArmRound4Pair (startAbcd, startEfgh) (startAbcd, startEfgh)
    aSched0 bSched0 0
  let (aRegs, bRegs) := btcSha256ArmRound4WkPair aRegs bRegs (vld1qU32 kFirstTailWk1)
  let (aRegs, bRegs) := btcSha256ArmRound4WkPair aRegs bRegs (vld1qU32 kFirstTailWk2)
  let (aRegs, bRegs) := btcSha256ArmRound4WkPair aRegs bRegs (vld1qU32 kFirstTailWk3)
  let (a, b) := btcSha256ArmRounds16Pair ⟨aRegs, aSched0, aSched1, aSched2, aSched3⟩
    ⟨bRegs, bSched0, bSched1, bSched2, bSched3⟩ 16
  let (a, b) := btcSha256ArmRounds16Pair a b 32
  let (a, b) := btcSha256ArmRounds16Pair a b 48
  ((vaddqU32 a.regs.1 startAbcd, vaddqU32 a.regs.2 startEfgh),
    vaddqU32 b.regs.1 startAbcd, vaddqU32 b.regs.2 startEfgh)

def sha256ArmCompressSecondHash2 (aSched0 aSched1 bSched0 bSched1 : U32x4) :
    (U32x4 × U32x4) × U32x4 × U32x4 :=
  let initialAbcd := makeU32x4 kSha256InitialState.word0 kSha256InitialState.word1 kSha256InitialState.word2
    kSha256InitialState.word3
  let initialEfgh := makeU32x4 kSha256InitialState.word4 kSha256InitialState.word5 kSha256InitialState.word6
    kSha256InitialState.word7
  let aSched2 := makeU32x4 0x80000000 0 0 0
  let aSched3 := makeU32x4 0 0 0 (32 * 8)
  let bSched2 := aSched2
  let bSched3 := aSched3
  let (aRegs, bRegs) := btcSha256ArmRound4Pair (initialAbcd, initialEfgh) (initialAbcd, initialEfgh)
    aSched0 bSched0 0
  let (aRegs, bRegs) := btcSha256ArmRound4Pair aRegs bRegs aSched1 bSched1 4
  let (aRegs, bRegs) := btcSha256ArmRound4WkPair aRegs bRegs (vld1qU32 kSecondHashWk2)
  let (aRegs, bRegs) := btcSha256ArmRound4WkPair aRegs bRegs (vld1qU32 kSecondHashWk3)
  let (a, b) := btcSha256ArmRounds16Pair ⟨aRegs, aSched0, aSched1, aSched2, aSched3⟩
    ⟨bRegs, bSched0, bSched1, bSched2, bSched3⟩ 16
  let (a, b) := btcSha256ArmRounds16Pair a b 32
  let (a, b) := btcSha256ArmRounds16Pair a b 48
  ((vaddqU32 a.regs.1 initialAbcd, vaddqU32 a.regs.2 initialEfgh),
    vaddqU32 b.regs.1 initialAbcd, vaddqU32 b.regs.2 initialEfgh)

/-- `vld1q_u32` of the lower and of the upper half of the state. -/
def loadFastState (state : Sha256Midstate) : U32x4 × U32x4 :=
  (makeU32x4 state.fastState.word0 state.fastState.word1 state.fastState.word2 state.fastState.word3,
    makeU32x4 state.fastState.word4 state.fastState.word5 state.fastState.word6 state.fastState.word7)

def sha256dHashNoncePairArmRaw (state : Sha256Midstate) (tail0 tail1 tail2 nonceA nonceB : Word) :
    Vector Word 8 × Vector Word 8 :=
  let (startAbcd, startEfgh) := loadFastState state
  let ((firstAAbcd, firstAEfgh), firstBAbcd, firstBEfgh) := sha256ArmCompressBtcTail2 startAbcd startEfgh
    (makeU32x4 tail0 tail1 tail2 (bswap32 nonceA)) (makeU32x4 tail0 tail1 tail2 (bswap32 nonceB))
  let (secondA, secondB) := sha256ArmCompressSecondHash2 firstAAbcd firstAEfgh firstBAbcd firstBEfgh
  (storeState secondA, storeState secondB)

def sha256dHashTailWordsArmRaw (state : Sha256Midstate) (tailWords : Vector Word 4) : Vector Word 8 :=
  let (firstAbcd, firstEfgh) := loadFastState state
  let (firstAbcd, firstEfgh) := sha256ArmCompressBtcTail firstAbcd firstEfgh
    (makeU32x4 tailWords.quad0 tailWords.quad1 tailWords.quad2 tailWords.quad3)
  storeState (sha256ArmCompressSecondHash firstAbcd firstEfgh)

def sha256d80MidstateHashTailWordsArmSha2 (state : Sha256Midstate) (tailWords : Vector Word 4) :
    Vector Word 8 :=
  sha256dHashTailWordsArmRaw state tailWords

/-- Iteration `j` of the pair loop is index `i = 2 * j`. -/
def sha256dScanNonceRangeArmSha2 (state : Sha256Midstate) (baseTailWords : Vector Word 4)
    (targetWords : Vector Word 8) (startNonce nonceCount : Word) : List (Word × Vector Word 8) :=
  let (startAbcd, startEfgh) := loadFastState state
  let tail0 := baseTailWords.quad0
  let tail1 := baseTailWords.quad1
  let tail2 := baseTailWords.quad2
  let pairedCount := nonceCount &&& ~~~(1 : Word)
  let pairs := (List.range (pairedCount.toNat / 2)).flatMap fun j =>
    let nonceA := startNonce + BitVec.ofNat 32 (2 * j)
    let nonceB := nonceA + 1
    let (hashWordsA, hashWordsB) := sha256dHashNoncePairArmRaw state tail0 tail1 tail2 nonceA nonceB
    reportMatch targetWords nonceA hashWordsA ++ reportMatch targetWords nonceB hashWordsB
  let last := if pairedCount < nonceCount then
      let nonce := startNonce + pairedCount
      let (firstAbcd, firstEfgh) := sha256ArmCompressBtcTail startAbcd startEfgh
        (makeU32x4 tail0 tail1 tail2 (bswap32 nonce))
      reportMatch targetWords nonce (storeState (sha256ArmCompressSecondHash firstAbcd firstEfgh))
    else []
  pairs ++ last

/-! ## Four rounds, and sixteen -/

/-- The register pair that holds the working variables `s`. -/
def image (s : Work) : U32x4 × U32x4 := (abcd s, efgh s)

theorem loadK_eq (t : Nat) : loadK t = quad roundConstant t := by
  have table : kSha256RoundConstants.toList = roundConstants := rfl
  simp only [loadK, makeU32x4, quad, roundConstant, table]

/-- Round constants and message words, added lane by lane. -/
def sums (W : Nat → Word) (t : Nat) : U32x4 := quad (fun t => roundConstant t + W t) t

theorem vaddqU32_loadK (W : Nat → Word) (t : Nat) : vaddqU32 (quad W t) (loadK t) = sums W t := by
  simp only [loadK_eq, vaddqU32, sums, quad, BitVec.add_comm]

theorem btcSha256ArmRound4Wk_eq (W : Nat → Word) (s : Work) (t : Nat) :
    btcSha256ArmRound4Wk (image (rounds W t s)) (sums W t) = image (rounds W (t + 4) s) := by
  simp only [btcSha256ArmRound4Wk, image, vsha256hqU32_eq, vsha256h2qU32_eq]
  rfl

theorem btcSha256ArmRound4_eq (W : Nat → Word) (s : Work) (t : Nat) :
    btcSha256ArmRound4 (image (rounds W t s)) (quad W t) t = image (rounds W (t + 4) s) := by
  rw [← btcSha256ArmRound4Wk_eq, ← vaddqU32_loadK]
  rfl

/-- The locals once rounds `0 … t + 15` are done and the last sixteen words are held. -/
def laneAt (block : List Word) (s : Work) (t : Nat) : Lane :=
  ⟨image (rounds (schedule block) (t + 16) s), quad (schedule block) t, quad (schedule block) (t + 4),
    quad (schedule block) (t + 8), quad (schedule block) (t + 12)⟩

theorem btcSha256ArmRounds16_eq {block : List Word} (full : block.length = 16) (s : Work) (t : Nat) :
    btcSha256ArmRounds16 (laneAt block s t) (t + 16) = laneAt block s (t + 16) := by
  have step := su_quad (schedule block) (schedule_rec full)
  have step₀ := step t
  have step₁ := step (t + 4)
  have step₂ := step (t + 8)
  have step₃ := step (t + 12)
  simp only [Nat.add_assoc, Nat.reduceAdd] at step₁ step₂ step₃
  simp only [btcSha256ArmRounds16, laneAt, step₀, step₁, step₂, step₃, btcSha256ArmRound4_eq,
    Nat.add_assoc, Nat.reduceAdd]

/-- Forty-eight rounds from the first sixteen. -/
theorem rounds_from_sixteen {block : List Word} (full : block.length = 16) (s : Work) :
    (btcSha256ArmRounds16 (btcSha256ArmRounds16 (btcSha256ArmRounds16 (laneAt block s 0) 16) 32) 48).regs =
      image (rounds (schedule block) 64 s) := by
  rw [btcSha256ArmRounds16_eq full s 0, btcSha256ArmRounds16_eq full s 16,
    btcSha256ArmRounds16_eq full s 32]
  rfl

/-- A chaining state in registers. -/
def stateRegs (state : Vector Word 8) : U32x4 × U32x4 := image (Work.ofState state)

theorem addState_eq (state : Vector Word 8) (s : Work) :
    (vaddqU32 (image s).1 (stateRegs state).1, vaddqU32 (image s).2 (stateRegs state).2) =
      stateRegs (feedForward state s) := by
  simp only [image, stateRegs, vaddqU32, abcd, efgh, Work.ofState, feedForward, BitVec.add_comm]
  rfl

theorem storeState_stateRegs (state : Vector Word 8) : storeState (stateRegs state) = state := by
  ext i hi
  simp only [storeState, stateRegs, image, abcd, efgh, Work.ofState]
  interval_cases i <;> rfl

/-! ## The registers of the padded blocks -/

theorem quad_schedule {block : List Word} (full : block.length = 16) (t : Nat) (first : t + 3 < 16) :
    quad (schedule block) t =
      makeU32x4 (block.getD t 0) (block.getD (t + 1) 0) (block.getD (t + 2) 0)
        (block.getD (t + 3) 0) := by
  simp only [quad, makeU32x4]
  rw [schedule_block full (by omega), schedule_block full (by omega), schedule_block full (by omega),
    schedule_block full (by omega)]

/-- The registers the first hash starts from hold its padded block. -/
theorem quad_firstMessage (tail : Vector Word 4) :
    makeU32x4 tail.quad0 tail.quad1 tail.quad2 tail.quad3 = quad (schedule (firstMessage tail.toList)) 0 ∧
      makeU32x4 0x80000000 0 0 0 = quad (schedule (firstMessage tail.toList)) 4 ∧
      makeU32x4 0 0 0 0 = quad (schedule (firstMessage tail.toList)) 8 ∧
      makeU32x4 0 0 0 (80 * 8) = quad (schedule (firstMessage tail.toList)) 12 := by
  have full := length_firstMessage tail
  rw [quad_schedule full 0 (by omega), quad_schedule full 4 (by omega),
    quad_schedule full 8 (by omega), quad_schedule full 12 (by omega), toList_four]
  exact ⟨rfl, rfl, rfl, rfl⟩

/-- The precomputed sums of the first hash are those of its padding. -/
theorem sums_firstMessage (tail : Vector Word 4) :
    vld1qU32 kFirstTailWk1 = sums (schedule (firstMessage tail.toList)) 4 ∧
      vld1qU32 kFirstTailWk2 = sums (schedule (firstMessage tail.toList)) 8 ∧
      vld1qU32 kFirstTailWk3 = sums (schedule (firstMessage tail.toList)) 12 := by
  obtain ⟨-, q₄, q₈, q₁₂⟩ := quad_firstMessage tail
  rw [← vaddqU32_loadK, ← vaddqU32_loadK, ← vaddqU32_loadK, ← q₄, ← q₈, ← q₁₂]
  decide

theorem quad_secondMessage (words : Vector Word 8) :
    (stateRegs words).1 = quad (schedule (secondMessage words.toList)) 0 ∧
      (stateRegs words).2 = quad (schedule (secondMessage words.toList)) 4 ∧
      makeU32x4 0x80000000 0 0 0 = quad (schedule (secondMessage words.toList)) 8 ∧
      makeU32x4 0 0 0 (32 * 8) = quad (schedule (secondMessage words.toList)) 12 := by
  have full := length_secondMessage words
  rw [quad_schedule full 0 (by omega), quad_schedule full 4 (by omega),
    quad_schedule full 8 (by omega), quad_schedule full 12 (by omega), toList_eight]
  exact ⟨rfl, rfl, rfl, rfl⟩

theorem sums_secondMessage (words : Vector Word 8) :
    vld1qU32 kSecondHashWk2 = sums (schedule (secondMessage words.toList)) 8 ∧
      vld1qU32 kSecondHashWk3 = sums (schedule (secondMessage words.toList)) 12 := by
  obtain ⟨-, -, q₈, q₁₂⟩ := quad_secondMessage words
  rw [← vaddqU32_loadK, ← vaddqU32_loadK, ← q₈, ← q₁₂]
  decide

/-! ## The four compressors -/

theorem sha256ArmCompressBtcTail_eq (state : Vector Word 8) (tail : Vector Word 4) :
    sha256ArmCompressBtcTail (stateRegs state).1 (stateRegs state).2
        (makeU32x4 tail.quad0 tail.quad1 tail.quad2 tail.quad3) =
      stateRegs (compress state (firstMessage tail.toList)) := by
  obtain ⟨q₀, q₄, q₈, q₁₂⟩ := quad_firstMessage tail
  obtain ⟨k₄, k₈, k₁₂⟩ := sums_firstMessage tail
  have full := length_firstMessage tail
  have start : (abcd (Work.ofState state), efgh (Work.ofState state)) =
      image (rounds (schedule (firstMessage tail.toList)) 0 (Work.ofState state)) := rfl
  have lane : Lane.mk (image (rounds (schedule (firstMessage tail.toList)) 16 (Work.ofState state)))
      (quad (schedule (firstMessage tail.toList)) 0) (quad (schedule (firstMessage tail.toList)) 4)
      (quad (schedule (firstMessage tail.toList)) 8) (quad (schedule (firstMessage tail.toList)) 12) =
        laneAt (firstMessage tail.toList) (Work.ofState state) 0 := rfl
  show sha256ArmCompressBtcTail (abcd (Work.ofState state)) (efgh (Work.ofState state)) _ = _
  -- Each group rewrites with the lemma at its own round number, in program order.
  simp only [sha256ArmCompressBtcTail, q₀, q₄, q₈, q₁₂, k₄, k₈, k₁₂, start, btcSha256ArmRound4_eq,
    btcSha256ArmRound4Wk_eq, Nat.reduceAdd, lane, rounds_from_sixteen full]
  exact addState_eq state _

theorem sha256ArmCompressSecondHash_eq (words : Vector Word 8) :
    sha256ArmCompressSecondHash (stateRegs words).1 (stateRegs words).2 =
      stateRegs (compress initialState (secondMessage words.toList)) := by
  obtain ⟨q₀, q₄, q₈, q₁₂⟩ := quad_secondMessage words
  obtain ⟨k₈, k₁₂⟩ := sums_secondMessage words
  have full := length_secondMessage words
  have start : (makeU32x4 kSha256InitialState.word0 kSha256InitialState.word1 kSha256InitialState.word2
      kSha256InitialState.word3, makeU32x4 kSha256InitialState.word4 kSha256InitialState.word5
      kSha256InitialState.word6 kSha256InitialState.word7) =
        image (rounds (schedule (secondMessage words.toList)) 0 (Work.ofState initialState)) := rfl
  have lane : Lane.mk (image (rounds (schedule (secondMessage words.toList)) 16 (Work.ofState initialState)))
      (quad (schedule (secondMessage words.toList)) 0) (quad (schedule (secondMessage words.toList)) 4)
      (quad (schedule (secondMessage words.toList)) 8) (quad (schedule (secondMessage words.toList)) 12) =
        laneAt (secondMessage words.toList) (Work.ofState initialState) 0 := rfl
  simp only [sha256ArmCompressSecondHash, q₀, q₄, q₈, q₁₂, k₈, k₁₂, start, btcSha256ArmRound4_eq,
    btcSha256ArmRound4Wk_eq, Nat.reduceAdd, lane, rounds_from_sixteen full]
  exact addState_eq initialState _

/-- The pair macros are the single ones side by side. -/
theorem btcSha256ArmRounds16Pair_eq (a b : Lane) (offset : Nat) :
    btcSha256ArmRounds16Pair a b offset = (btcSha256ArmRounds16 a offset, btcSha256ArmRounds16 b offset) :=
  rfl

theorem sha256ArmCompressBtcTail2_eq (startAbcd startEfgh aSched0 bSched0 : U32x4) :
    sha256ArmCompressBtcTail2 startAbcd startEfgh aSched0 bSched0 =
      (sha256ArmCompressBtcTail startAbcd startEfgh aSched0,
        sha256ArmCompressBtcTail startAbcd startEfgh bSched0) := by
  simp only [sha256ArmCompressBtcTail2, btcSha256ArmRounds16Pair_eq]
  rfl

theorem sha256ArmCompressSecondHash2_eq (aSched0 aSched1 bSched0 bSched1 : U32x4) :
    sha256ArmCompressSecondHash2 aSched0 aSched1 bSched0 bSched1 =
      (sha256ArmCompressSecondHash aSched0 aSched1, sha256ArmCompressSecondHash bSched0 bSched1) := by
  simp only [sha256ArmCompressSecondHash2, btcSha256ArmRounds16Pair_eq]
  rfl

/-! ## The double hash and the scan -/

theorem sha256dHashTailWordsArmRaw_eq (state : Sha256Midstate) (tail : Vector Word 4) :
    sha256dHashTailWordsArmRaw state tail = midstateHash state.fastState tail := by
  have first := sha256ArmCompressBtcTail_eq state.fastState tail
  have second := sha256ArmCompressSecondHash_eq (compress state.fastState (firstMessage tail.toList))
  have load : loadFastState state = stateRegs state.fastState := rfl
  simp only [sha256dHashTailWordsArmRaw, load, first, second, storeState_stateRegs]
  rfl

/-- The tail registers of a nonce. -/
theorem makeU32x4_withNonce (base : Vector Word 4) (nonce : Word) :
    makeU32x4 base.quad0 base.quad1 base.quad2 (bswap32 nonce) =
      makeU32x4 (withNonce base nonce).quad0 (withNonce base nonce).quad1 (withNonce base nonce).quad2
        (withNonce base nonce).quad3 := by
  obtain ⟨w₀, w₁, w₂, w₃⟩ := withNonce_getElem base nonce
  rw [w₀, w₁, w₂, w₃]

theorem sha256dHashNoncePairArmRaw_eq (state : Sha256Midstate) (base : Vector Word 4)
    (nonceA nonceB : Word) :
    sha256dHashNoncePairArmRaw state base.quad0 base.quad1 base.quad2 nonceA nonceB =
      (midstateHash state.fastState (withNonce base nonceA),
        midstateHash state.fastState (withNonce base nonceB)) := by
  have one := sha256dHashTailWordsArmRaw_eq state
  rw [← one (withNonce base nonceA), ← one (withNonce base nonceB)]
  simp only [sha256dHashNoncePairArmRaw, sha256dHashTailWordsArmRaw, makeU32x4_withNonce,
    sha256ArmCompressBtcTail2_eq, sha256ArmCompressSecondHash2_eq]

theorem sha256dScanNonceRangeArmSha2_eq (state : Sha256Midstate) (base : Vector Word 4)
    (target : Vector Word 8) (start count : Word) :
    sha256dScanNonceRangeArmSha2 state base target start count =
      sha256dScanNonceRangeGeneric .fastC state base target start count := by
  have loop : sha256dScanNonceRangeArmSha2 state base target start count =
      pairedScan (fun a b => sha256dHashNoncePairArmRaw state base.quad0 base.quad1 base.quad2 a b)
        (fun nonce => sha256dHashTailWordsArmRaw state (withNonce base nonce)) target start count := by
    simp only [sha256dScanNonceRangeArmSha2, pairedScan, sha256dHashTailWordsArmRaw, makeU32x4_withNonce]
  rw [loop]
  exact pairedScan_eq_generic state base target start count
    (fun a b => sha256dHashNoncePairArmRaw_eq state base a b)
    (fun nonce => sha256dHashTailWordsArmRaw_eq state (withNonce base nonce))

/-- **The Arm scan is the generic scan.**  For every midstate, tail, target, start and
32-bit count the reported nonces and hash words are the same and in the same order; and
each of the four compressors is the plain compression of its padded block. -/
theorem arm_scan_eq_generic_scan (state : Sha256Midstate) (base : Vector Word 4)
    (target : Vector Word 8) (start count : Word) :
    sha256dScanNonceRangeArmSha2 state base target start count =
        sha256dScanNonceRangeGeneric .fastC state base target start count ∧
      (∀ (chain : Vector Word 8) (tail : Vector Word 4),
        sha256ArmCompressBtcTail (stateRegs chain).1 (stateRegs chain).2 (vld1qU32 tail) =
          stateRegs (compress chain (firstMessage tail.toList))) ∧
      (∀ words : Vector Word 8, sha256ArmCompressSecondHash (stateRegs words).1 (stateRegs words).2 =
        stateRegs (compress initialState (secondMessage words.toList))) ∧
      (∀ (chain : Vector Word 8) (tailA tailB : Vector Word 4),
        sha256ArmCompressBtcTail2 (stateRegs chain).1 (stateRegs chain).2 (vld1qU32 tailA)
            (vld1qU32 tailB) =
          (stateRegs (compress chain (firstMessage tailA.toList)),
            stateRegs (compress chain (firstMessage tailB.toList)))) ∧
      ∀ wordsA wordsB : Vector Word 8,
        sha256ArmCompressSecondHash2 (stateRegs wordsA).1 (stateRegs wordsA).2 (stateRegs wordsB).1
            (stateRegs wordsB).2 =
          (stateRegs (compress initialState (secondMessage wordsA.toList)),
            stateRegs (compress initialState (secondMessage wordsB.toList))) := by
  refine ⟨sha256dScanNonceRangeArmSha2_eq state base target start count, sha256ArmCompressBtcTail_eq,
    sha256ArmCompressSecondHash_eq, fun chain tailA tailB => ?_, fun wordsA wordsB => ?_⟩
  · rw [sha256ArmCompressBtcTail2_eq]
    exact Prod.ext (sha256ArmCompressBtcTail_eq chain tailA) (sha256ArmCompressBtcTail_eq chain tailB)
  · rw [sha256ArmCompressSecondHash2_eq]
    exact Prod.ext (sha256ArmCompressSecondHash_eq wordsA) (sha256ArmCompressSecondHash_eq wordsB)

end BtcRig.Hash.ArmSha2
