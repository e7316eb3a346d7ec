/-
# BtcRig.Gpu.SelfTest — the scan a GPU must get right before it mines

A self-test lets the device scan sixteen nonces of a fixed header with a target that every
hash meets, and checks each reported match against `sha256d_80`.  The header is kept in
the context and its nonce bytes are overwritten by every match.

The two backends have the same callback and the same context, here once.  The check is a
roll call over the sixteen nonces (`tracks_calls`), with a bit of `seen_mask` for each, so
that it accepts exactly the correct sequences (`self_test_exact`), among them the one the
portable scan makes (`genericScan_passes`).
-/
import BtcRig.Gpu.Launch
import BtcRig.Mining.PoolView
import BtcRig.Theory.RollCall

namespace BtcRig.Gpu.SelfTest

open BtcRig.Theory
open BtcRig.Theory.Words
open BtcRig.Theory.RollCall
open BtcRig.Hash.Sha256d
open BtcRig.Mining.PoolView
open BtcRig.Gpu.Launch

set_option autoImplicit false

/-- A call of the callback: the nonce and the hash words. -/
abbrev Report := Word × Vector Word 8

def makeSelfTestHeader : Vector Byte 80 :=
  let header : Vector Byte 80 := Vector.replicate 80 0
  let header := header.set 0 0x01
  let header := header.set 68 0xff
  let header := header.set 69 0xff
  let header := header.set 70 0x00
  header.set 71 0x1d

/-- `store_le32(&header[76], nonce)`. -/
def storeNonce (header : Vector Byte 80) (nonce : Word) : Vector Byte 80 :=
  let header := header.set 76 (byteAt nonce 0)
  let header := header.set 77 (byteAt nonce 1)
  let header := header.set 78 (byteAt nonce 2)
  header.set 79 (byteAt nonce 3)

structure SelfTestContext where
  header : Vector Byte 80
  startNonce : Word
  nonceCount : Word
  seenMask : Word
  failed : Bool

def selfTestMatch (ctx : SelfTestContext) (report : Report) : SelfTestContext :=
  let (nonce, hashWords) := report
  if nonce < ctx.startNonce || ctx.startNonce + ctx.nonceCount ≤ nonce then
    { ctx with failed := true }
  else
    let offset := nonce - ctx.startNonce
    let bit := (1 : Word) <<< offset.toNat
    if ctx.seenMask &&& bit ≠ 0 then { ctx with failed := true }
    else
      let ctx := { ctx with seenMask := ctx.seenMask ||| bit }
      let ctx := { ctx with header := storeNonce ctx.header nonce }
      let cpuHash := sha256d80 ctx.header.toList
      let gpuHash := sha256dWordsToHash hashWords
      if cpuHash ≠ gpuHash then { ctx with failed := true } else ctx

def openclSelfTestMatch : SelfTestContext → Report → SelfTestContext := selfTestMatch

def cudaSelfTestMatch : SelfTestContext → Report → SelfTestContext := selfTestMatch

def selfTestNonceCount : Word := 16

def selfTestContext : SelfTestContext where
  header := makeSelfTestHeader
  startNonce := 0x13579b00
  nonceCount := selfTestNonceCount
  seenMask := 0
  failed := false

/-! What the scan is given beside the range. -/

def selfTestMidstate : Sha256Midstate :=
  sha256d80MidstatePrepare (makeSelfTestHeader.toList.take 64)

def selfTestTailWords : Vector Word 4 :=
  Vector.ofFn fun i : Fin 4 => loadBe32 (makeSelfTestHeader.toList.drop (64 + i * 4))

def selfTestTargetWords : Vector Word 8 := Vector.replicate 8 0xffffffff

def expectedMask : Word := ((1 : Word) <<< selfTestNonceCount.toNat) - 1

/-- The check after the scan. -/
def SelfTestContext.verified (ctx : SelfTestContext) : Bool :=
  !(ctx.failed || ctx.seenMask != expectedMask)

/-- The self-test of a device that is made or not, whose scan makes these calls and
succeeds or not. -/
def openclMinerSelfTest (made : Bool) (reports : List Report) (scanned : Bool) : Int :=
  if !made then -1
  else
    let context := reports.foldl openclSelfTestMatch selfTestContext
    if !scanned then -1 else if !context.verified then -1 else 0

def cudaMinerSelfTest (made : Bool) (reports : List Report) (scanned : Bool) : Int :=
  if !made then -1
  else
    let context := reports.foldl cudaSelfTestMatch selfTestContext
    if !scanned then -1 else if !context.verified then -1 else 0

/-! ## The roll call -/

def testNonces : List Word := (List.range 16).map (nonceAt 0x13579b00)

/-- The hash words are those of the test header with this nonce. -/
def Hashes (nonce : Word) (hashWords : Vector Word 8) : Bool :=
  decide (sha256d80 (storeNonce makeSelfTestHeader nonce).toList = sha256dWordsToHash hashWords)

theorem storeNonce_storeNonce (header : Vector Byte 80) (earlier nonce : Word) :
    storeNonce (storeNonce header earlier) nonce = storeNonce header nonce := by
  apply Vector.ext
  intro i inside
  simp only [storeNonce, Vector.getElem_set]
  split <;> rename_i a
  · rfl
  split <;> rename_i b
  · rfl
  split <;> rename_i c
  · rfl
  split <;> rfl

theorem toNat_testNonce {i : Nat} (small : i < 16) :
    (nonceAt 0x13579b00 i).toNat = 0x13579b00 + i :=
  toNat_nonceAt (by
    have : (0x13579b00 : Word).toNat = 0x13579b00 := rfl
    omega)

/-- The nonces of the test are a range of sixteen. -/
theorem mem_testNonces {nonce : Word} :
    nonce ∈ testNonces ↔ 0x13579b00 ≤ nonce.toNat ∧ nonce.toNat < 0x13579b10 := by
  rw [testNonces, List.mem_map]
  constructor
  · rintro ⟨i, inside, rfl⟩
    rw [List.mem_range] at inside
    rw [toNat_testNonce inside]
    omega
  · rintro ⟨low, high⟩
    refine ⟨nonce.toNat - 0x13579b00, List.mem_range.mpr (by omega), BitVec.eq_of_toNat_eq ?_⟩
    rw [toNat_testNonce (by omega)]
    omega

theorem nodup_testNonces : testNonces.Nodup := by
  refine List.Nodup.map_on (fun i inside j inside' same => ?_) List.nodup_range
  have nats := congrArg BitVec.toNat same
  rw [toNat_testNonce (List.mem_range.mp inside), toNat_testNonce (List.mem_range.mp inside')] at nats
  omega

/-! ## A bit for each nonce -/

theorem and_bit_ne_zero (mask : Word) {i : Nat} (small : i < 32) :
    mask &&& (1 : Word) <<< i ≠ 0 ↔ mask.getLsbD i = true := by
  rw [show (1 : Word) <<< i = BitVec.twoPow 32 i from (BitVec.twoPow_eq 32 i).symm, BitVec.and_twoPow]
  split
  · rename_i set
    simp only [set, iff_true]
    intro zero
    have bit := congrArg (·.getLsbD i) zero
    simp [small] at bit
  · rename_i clear
    simp [clear]

theorem getLsbD_or_bit (mask : Word) {i : Nat} (small : i < 32) (j : Nat) :
    (mask ||| (1 : Word) <<< i).getLsbD j = true ↔ mask.getLsbD j = true ∨ j = i := by
  rw [show (1 : Word) <<< i = BitVec.twoPow 32 i from (BitVec.twoPow_eq 32 i).symm,
    BitVec.getLsbD_or, BitVec.getLsbD_twoPow]
  simp only [small, decide_true, Bool.true_and, Bool.or_eq_true, decide_eq_true_eq]
  exact or_congr_right eq_comm

/-- The mask of a complete test has a bit for each of them. -/
theorem getLsbD_expectedMask (i : Nat) : expectedMask.getLsbD i = decide (i < 16) := by
  rcases lt_or_ge i 32 with inside | beyond
  · revert i
    decide
  · rw [BitVec.getLsbD_of_ge _ _ beyond]
    simp
    omega

/-- The context keeps the roll: a bit for each nonce seen.  Only the nonce bytes of its
header have changed. -/
structure Tracks (ctx : SelfTestContext) (roll : Roll Word) : Prop where
  header : ∀ nonce, storeNonce ctx.header nonce = storeNonce makeSelfTestHeader nonce
  startNonce : ctx.startNonce = 0x13579b00
  nonceCount : ctx.nonceCount = 16
  seenMask : ∀ i, ctx.seenMask.getLsbD i = true ↔ i < 16 ∧ nonceAt 0x13579b00 i ∈ roll.seen
  failed : ctx.failed = roll.failed

/-- One callback marks its nonce or fails the test. -/
theorem tracks_call {ctx : SelfTestContext} {roll : Roll Word} (tracks : Tracks ctx roll)
    (report : Report) : Tracks (selfTestMatch ctx report) (call testNonces Hashes roll report) := by
  obtain ⟨nonce, hashWords⟩ := report
  have outside : (nonce < ctx.startNonce || ctx.startNonce + ctx.nonceCount ≤ nonce) = true ↔
      nonce ∉ testNonces := by
    rw [mem_testNonces, tracks.startNonce, tracks.nonceCount]
    simp [BitVec.lt_def, BitVec.le_def]
    omega
  simp only [selfTestMatch, call, outside]
  split
  · exact { tracks with failed := rfl }
  rename_i inside
  obtain ⟨low, high⟩ := mem_testNonces.mp (not_not.mp inside)
  have start : (0x13579b00 : Word).toNat = 0x13579b00 := rfl
  have isOffset : (nonce - ctx.startNonce).toNat = nonce.toNat - 0x13579b00 := by
    rw [tracks.startNonce, BitVec.toNat_sub_of_le (by rw [BitVec.le_def]; omega), start]
  generalize (nonce - ctx.startNonce).toNat = offset at isOffset
  have small : offset < 16 := by omega
  have isNonce : nonceAt 0x13579b00 offset = nonce := by
    apply BitVec.eq_of_toNat_eq
    rw [toNat_testNonce small]
    omega
  have twice : ctx.seenMask &&& (1 : Word) <<< offset ≠ 0 ↔ nonce ∈ roll.seen := by
    rw [and_bit_ne_zero _ (by omega), tracks.seenMask, isNonce]
    simp [small]
  simp only [twice]
  split
  · exact { tracks with failed := rfl }
  have marked : ∀ i, (ctx.seenMask ||| (1 : Word) <<< offset).getLsbD i = true ↔
      i < 16 ∧ nonceAt 0x13579b00 i ∈ insert nonce roll.seen := by
    intro i
    rw [getLsbD_or_bit _ (by omega), tracks.seenMask, Finset.mem_insert]
    constructor
    · rintro (⟨inRange, seen⟩ | rfl)
      · exact ⟨inRange, .inr seen⟩
      · exact ⟨small, .inl isNonce⟩
    · rintro ⟨inRange, same | seen⟩
      · have nats := congrArg BitVec.toNat same
        rw [toNat_testNonce inRange] at nats
        exact .inr (by omega)
      · exact .inl ⟨inRange, seen⟩
  have overwritten : ∀ other, storeNonce (storeNonce ctx.header nonce) other =
      storeNonce makeSelfTestHeader other := by
    intro other
    rw [storeNonce_storeNonce, tracks.header]
  have verdict : (sha256d80 (storeNonce ctx.header nonce).toList ≠ sha256dWordsToHash hashWords) ↔
      Hashes nonce hashWords = false := by
    rw [tracks.header, Hashes, decide_eq_false_iff_not]
  simp only [verdict]
  split
  · rename_i wrong
    exact ⟨overwritten, tracks.startNonce, tracks.nonceCount, marked, by simp [wrong]⟩
  · rename_i right
    exact ⟨overwritten, tracks.startNonce, tracks.nonceCount, marked, by
      simp [Bool.eq_true_of_not_eq_false right, tracks.failed]⟩

theorem tracks_calls (reports : List Report) :
    Tracks (reports.foldl selfTestMatch selfTestContext) (calls testNonces Hashes reports) := by
  induction reports using List.reverseRecOn with
  | nil =>
      refine ⟨fun _ => rfl, rfl, rfl, fun i => ?_, rfl⟩
      simp [selfTestContext, calls, Roll.empty]
  | append_singleton reports report ih =>
      rw [List.foldl_append, calls_snoc]
      exact tracks_call ih report

/-- The flags say what the roll call says. -/
theorem verified_iff {ctx : SelfTestContext} {roll : Roll Word} (tracks : Tracks ctx roll)
    (expected : ∀ nonce ∈ roll.seen, nonce ∈ testNonces) :
    ctx.verified = true ↔ roll.passes testNonces := by
  have full : ctx.seenMask = expectedMask ↔ roll.seen = testNonces.toFinset := by
    constructor
    · intro same
      refine Finset.ext fun nonce => ?_
      rw [List.mem_toFinset]
      refine ⟨expected nonce, fun isTest => ?_⟩
      obtain ⟨i, inside, rfl⟩ := List.mem_map.mp isTest
      have set : ctx.seenMask.getLsbD i = true := by
        rw [same, getLsbD_expectedMask, decide_eq_true (List.mem_range.mp inside)]
      exact ((tracks.seenMask i).mp set).2
    · intro all
      apply BitVec.eq_of_getLsbD_eq
      intro i _
      rw [Bool.eq_iff_iff, tracks.seenMask, getLsbD_expectedMask, decide_eq_true_eq, all]
      refine ⟨And.left, fun inside => ⟨inside, ?_⟩⟩
      exact List.mem_toFinset.mpr (List.mem_map_of_mem (List.mem_range.mpr inside))
  rw [SelfTestContext.verified, Roll.passes, ← full, tracks.failed]
  simp

/-- The sixteen test nonces in any order, each once and with the hash of the header that
carries it. -/
def Correct (reports : List Report) : Prop :=
  (reports.map Prod.fst).Perm testNonces ∧
    ∀ report ∈ reports, sha256dWordsToHash report.2 =
      sha256d80 (storeNonce makeSelfTestHeader report.1).toList

/-- The test is passed exactly by the right matches, each once. -/
theorem verified_iff_correct (reports : List Report) :
    (reports.foldl selfTestMatch selfTestContext).verified = true ↔ Correct reports := by
  have hash : ∀ report : Report, Hashes report.1 report.2 = true ↔ sha256dWordsToHash report.2 =
      sha256d80 (storeNonce makeSelfTestHeader report.1).toList := fun report =>
    decide_eq_true_iff.trans eq_comm
  rw [verified_iff (tracks_calls reports) fun nonce seen =>
    ((calls_seen testNonces Hashes reports nonce).mp seen).2, passes_iff _ nodup_testNonces, Correct]
  simp only [hash]

/-- **The self-test of either backend accepts exactly the correct sequences of matches.** -/
theorem self_test_exact (reports : List Report) :
    ((reports.foldl openclSelfTestMatch selfTestContext).verified = true ↔ Correct reports) ∧
      ((reports.foldl cudaSelfTestMatch selfTestContext).verified = true ↔ Correct reports) :=
  ⟨verified_iff_correct reports, verified_iff_correct reports⟩

/-! ## The self-test accepts a correct device -/

theorem toList_storeNonce (header : Vector Byte 80) (nonce : Word) :
    (storeNonce header nonce).toList =
      withNonce header #v[byteAt nonce 0, byteAt nonce 1, byteAt nonce 2, byteAt nonce 3] := by
  refine List.ext_getElem (by simp [withNonce]) fun i inside _ => ?_
  have inside : i < 80 := by simpa using inside
  rw [Vector.getElem_toList]
  simp only [storeNonce, withNonce, Vector.getElem_set]
  rcases lt_or_ge i 76 with kept | nonceByte
  · rw [List.getElem_append_left (by simpa using kept), List.getElem_take, Vector.getElem_toList,
      if_neg (by omega), if_neg (by omega), if_neg (by omega), if_neg (by omega)]
  · obtain rfl | rfl | rfl | rfl : i = 76 ∨ i = 77 ∨ i = 78 ∨ i = 79 := by omega
    all_goals
      rw [List.getElem_append_right (by simp)]
      simp

theorem meets_selfTestTarget (hashWords : Vector Word 8) :
    hashWordsMeetTarget hashWords selfTestTargetWords = true := by
  rw [hashWordsMeetTarget, leFrom_iff (b := 2 ^ 32) 8 (fun i _ => BitVec.isLt _)
    (fun i _ => BitVec.isLt _)]
  refine Finset.sum_le_sum fun i inside => Nat.mul_le_mul_right _ ?_
  have isMax : selfTestTargetWords.toList.getD i 0 = 0xffffffff := by
    rw [selfTestTargetWords, Vector.toList_replicate, List.getD_eq_getElem?_getD,
      List.getElem?_replicate_of_lt (Finset.mem_range.mp inside), Option.getD_some]
  have below := (bswap32 (hashWords.toList.getD i 0)).isLt
  simp only [isMax]
  exact Nat.le_of_lt_succ below

theorem genericScan_eq (backend : PortableBackend) :
    sha256dScanNonceRangeGeneric backend selfTestMidstate selfTestTailWords selfTestTargetWords
        0x13579b00 selfTestNonceCount =
      testNonces.map fun nonce => (nonce, sha256dTailWordsFunc backend selfTestMidstate
        (selfTestTailWords.setQuad3 (bswap32 nonce))) := by
  have count : selfTestNonceCount.toNat = 16 := rfl
  rw [sha256dScanNonceRangeGeneric, testNonces, List.map_map, ← List.filterMap_eq_map, count]
  simp only [meets_selfTestTarget, if_true]
  rfl

/-- Those of the portable scan are right. -/
theorem genericScan_correct (backend : PortableBackend) :
    Correct (sha256dScanNonceRangeGeneric backend selfTestMidstate selfTestTailWords
      selfTestTargetWords 0x13579b00 selfTestNonceCount) := by
  rw [genericScan_eq]
  refine ⟨?_, fun report member => ?_⟩
  · rw [List.map_map]
    exact (List.map_id testNonces).symm ▸ .refl _
  · obtain ⟨nonce, -, rfl⟩ := List.mem_map.mp member
    rw [toList_storeNonce]
    exact (sha256d80_withNonce backend
      { Mining.State.zeroJob with header := makeSelfTestHeader } nonce).symm

/-- The matches of a portable scan pass, whichever backend made them. -/
theorem genericScan_passes (backend : PortableBackend) :
    let reports := sha256dScanNonceRangeGeneric backend selfTestMidstate selfTestTailWords
      selfTestTargetWords 0x13579b00 selfTestNonceCount
    openclMinerSelfTest true reports true = 0 ∧ cudaMinerSelfTest true reports true = 0 := by
  have verified := (verified_iff_correct _).mpr (genericScan_correct backend)
  intro reports
  have opencl : (reports.foldl openclSelfTestMatch selfTestContext).verified = true := verified
  have cuda : (reports.foldl cudaSelfTestMatch selfTestContext).verified = true := verified
  constructor
  · simp [openclMinerSelfTest, opencl]
  · simp [cudaMinerSelfTest, cuda]

end BtcRig.Gpu.SelfTest
