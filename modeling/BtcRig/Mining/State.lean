/-
# BtcRig.Mining.State — the shared miner and its lock sections

The fields of `struct miner` that the mining loop and its callers touch, and one
function for each stretch of code that runs under `miner->lock`.  Interleavings
of these functions are the subject of `Mining.Workers`.

* `copyJobAndNonceRangeSized_cases` is the allocator: what a caller is handed and
  what it leaves behind, over plain numbers;
* `queueScanMatch_late`, `countHashes_late` say that a late result changes nothing.
-/
import BtcRig.Mining.Job
import BtcRig.Theory.RingBuffer

namespace BtcRig.Mining.State

open BtcRig.Theory
open BtcRig.Theory.Words
open BtcRig.Hash.Sha256d
open BtcRig.Mining.Job

set_option autoImplicit false

def minerBatchSize : Word := 262144
def minerMixedCpuBatchSize : Word := 65536
def shareQueueSize : Nat := 256

structure ActiveJob where
  publicJob : MinerJob
  midstate : Sha256Midstate
  tailWords : Vector Word 4
  targetWords : Vector Word 8
  pauseEpoch : BitVec 64
  valid : Bool

structure MinerShare where
  seq : BitVec 64
  nonce : Word
  difficulty : WithTop ℚ
  hash : Vector Byte 32
  jobId : CStr 128
  extranonce2 : CStr 32
  ntime : CStr 16

structure Miner where
  threadCount : Nat
  openclStarted : Nat
  cudaStarted : Nat
  started : Bool
  stop : Bool
  paused : Bool
  pauseEpoch : BitVec 64
  job : ActiveJob
  nextNonce : BitVec 64
  nonceExhausted : Bool
  hashes : BitVec 64
  threadHashes : Nat → BitVec 64
  openclHashes : Nat → BitVec 64
  cudaHashes : BitVec 64
  shares : RingBuffer MinerShare shareQueueSize

/-! ## The zeroed miner -/

def zeroJob : MinerJob where
  seq := 0
  jobId := .empty room128
  extranonce2 := .empty room32
  ntime := .empty room16
  header := Vector.replicate 80 0
  target := Vector.replicate 32 0

def zeroActiveJob : ActiveJob where
  publicJob := zeroJob
  midstate := ⟨⟨Vector.replicate 8 0, [], 0⟩, ⟨Vector.replicate 8 0, [], 0⟩, Vector.replicate 8 0⟩
  tailWords := Vector.replicate 4 0
  targetWords := Vector.replicate 8 0
  pauseEpoch := 0
  valid := false

def zeroShare : MinerShare where
  seq := 0
  nonce := 0
  difficulty := 0
  hash := Vector.replicate 32 0
  jobId := .empty room128
  extranonce2 := .empty room32
  ntime := .empty room16

/-- A created miner after a successful start with so many workers of each kind. -/
def minerStarted (threadCount openclStarted cudaStarted : Nat) : Miner where
  threadCount := threadCount
  openclStarted := openclStarted
  cudaStarted := cudaStarted
  started := true
  stop := false
  paused := false
  pauseEpoch := 0
  job := zeroActiveJob
  nextNonce := 0
  nonceExhausted := false
  hashes := 0
  threadHashes := fun _ => 0
  openclHashes := fun _ => 0
  cudaHashes := 0
  shares := ⟨fun _ => zeroShare, 0, 0, 0⟩

def minerCreate (threadCount : Int) : Miner :=
  let threadCount := if threadCount < 0 then 0 else threadCount
  { minerStarted threadCount.toNat 0 0 with started := false }

/-! ## Worker side -/

def queueShareLocked (miner : Miner) (job : MinerJob) (nonce : Word) (hash : Vector Byte 32) :
    Miner :=
  { miner with shares := miner.shares.push {
      seq := job.seq
      nonce := nonce
      difficulty := minerHashDifficulty hash
      hash := hash
      jobId := job.jobId
      extranonce2 := job.extranonce2
      ntime := job.ntime } }

/-- The range handed out, if any, is the job, its first nonce and their number. -/
def copyJobAndNonceRangeSized (miner : Miner) (batchSize : Word) :
    Miner × Option (ActiveJob × Word × Word) :=
  let batchSize := if batchSize = 0 then minerBatchSize else batchSize
  if !miner.stop && !miner.paused && miner.job.valid then
    if miner.nextNonce > 0xffffffff then
      ({ miner with job := { miner.job with valid := false }, nonceExhausted := true }, none)
    else
      let remaining : BitVec 64 := 0xffffffff - miner.nextNonce + 1
      let range : Word :=
        if remaining < batchSize.setWidth 64 then remaining.setWidth 32 else batchSize
      ({ miner with nextNonce := miner.nextNonce + range.setWidth 64 },
        some ({ miner.job with pauseEpoch := miner.pauseEpoch }, miner.nextNonce.setWidth 32, range))
  else (miner, none)

def minerCpuBatchSize (miner : Miner) : Word :=
  if miner.openclStarted > 0 then minerMixedCpuBatchSize
  else if miner.cudaStarted > 0 then minerMixedCpuBatchSize
  else minerBatchSize

/-- The condition of the loop around `pthread_cond_wait`. -/
def mustWait (miner : Miner) : Bool := !miner.stop && (miner.paused || !miner.job.valid)

def scanResultStillCurrentLocked (miner : Miner) (job : ActiveJob) : Bool :=
  !miner.stop && !miner.paused && miner.pauseEpoch == job.pauseEpoch &&
    miner.job.publicJob.seq == job.publicJob.seq

def hashOfWords (hashWords : Vector Word 8) : Vector Byte 32 :=
  ⟨(sha256dWordsToHash hashWords).toArray, by
    rw [List.size_toArray]
    exact (Sha256.length_flatMap_toBe hashWords.toList).trans (by simp)⟩

def queueScanMatch (miner : Miner) (job : ActiveJob) (nonce : Word) (hashWords : Vector Word 8) :
    Miner :=
  let hash := hashOfWords hashWords
  if scanResultStillCurrentLocked miner job then queueShareLocked miner job.publicJob nonce hash
  else miner

inductive WorkerId where
  | cpu (id : Nat)
  | opencl (id : Nat)
  | cuda
deriving DecidableEq

/-- The last lock section of a worker's iteration, after a successful scan. -/
def countHashes (miner : Miner) (worker : WorkerId) (job : ActiveJob) (nonceCount : Word) : Miner :=
  if scanResultStillCurrentLocked miner job then
    let miner := { miner with hashes := miner.hashes + nonceCount.setWidth 64 }
    match worker with
    | .cpu id =>
        if id < miner.threadCount then
          { miner with threadHashes :=
              Function.update miner.threadHashes id (miner.threadHashes id + nonceCount.setWidth 64) }
        else miner
    | .opencl id =>
        if id < miner.openclStarted then
          { miner with openclHashes :=
              Function.update miner.openclHashes id (miner.openclHashes id + nonceCount.setWidth 64) }
        else miner
    | .cuda => { miner with cudaHashes := miner.cudaHashes + nonceCount.setWidth 64 }
  else miner

/-! ## Caller side -/

/-- The part of `miner_set_job` before the lock is taken. -/
def activate (job : MinerJob) : ActiveJob where
  publicJob := job
  valid := true
  midstate := sha256d80MidstatePrepare (job.header.toList.take 64)
  tailWords := Vector.ofFn fun i : Fin 4 => loadBe (job.header.toList.drop (64 + i * 4))
  targetWords := Vector.ofFn fun i : Fin 8 => loadLe (job.target.toList.drop (i * 4))
  pauseEpoch := 0

def minerSetJob (miner : Miner) (job : MinerJob) : Miner :=
  let active := activate job
  let active :=
    { active with publicJob := { active.publicJob with seq := miner.job.publicJob.seq + 1 } }
  { miner with
    job := active
    nextNonce := 0
    nonceExhausted := false
    shares := miner.shares.clear }

def minerSetPaused (miner : Miner) (paused : Bool) : Miner :=
  let miner :=
    if !miner.paused && paused then { miner with pauseEpoch := miner.pauseEpoch + 1 } else miner
  { miner with paused := paused }

/-- The lock section of `miner_stop`; the joins after it wait for the workers. -/
def minerStop (miner : Miner) : Miner := if !miner.started then miner else { miner with stop := true }

def minerTakeNonceExhausted (miner : Miner) : Bool × Miner :=
  (miner.nonceExhausted, { miner with nonceExhausted := false })

def minerPopShare (miner : Miner) : Option MinerShare × Miner :=
  (miner.shares.pop.1, { miner with shares := miner.shares.pop.2 })

/-! ## What the lock sections do -/

/-- The number of nonces handed out is positive and stays below the end of the
nonce space, although it is computed in 32 bits from a 64-bit remainder. -/
theorem clippedRange_spec (nextNonce : BitVec 64) (batchSize : Word)
    (fresh : nextNonce.toNat ≤ 0xffffffff) :
    ∃ range : Word,
      (if (0xffffffff - nextNonce + 1 : BitVec 64) <
          (if batchSize = 0 then minerBatchSize else batchSize).setWidth 64
        then (0xffffffff - nextNonce + 1 : BitVec 64).setWidth 32
        else if batchSize = 0 then minerBatchSize else batchSize) = range ∧
      1 ≤ range.toNat ∧ nextNonce.toNat + range.toNat ≤ 2 ^ 32 := by
  have remaining : (0xffffffff - nextNonce + 1 : BitVec 64).toNat = 2 ^ 32 - nextNonce.toNat := by
    have top : (0xffffffff : BitVec 64).toNat = 0xffffffff := rfl
    have one : (1 : BitVec 64).toNat = 1 := rfl
    rw [BitVec.toNat_add, BitVec.toNat_sub, top, one]
    omega
  generalize isBatch : (if batchSize = 0 then minerBatchSize else batchSize) = batch
  have positive : 1 ≤ batch.toNat := by
    rw [← isBatch]
    split
    · decide
    · rename_i nonzero
      exact Nat.pos_of_ne_zero fun zero => nonzero (BitVec.eq_of_toNat_eq zero)
  have small := batch.isLt
  refine ⟨_, rfl, ?_⟩
  simp only [BitVec.lt_def, BitVec.toNat_setWidth, remaining]
  split
  · rw [BitVec.toNat_setWidth, remaining]
    omega
  · omega

/-- **The allocator.**  It is idle, or it finds the nonces used up and says so once,
or it hands out the next nonces, never past `2^32`. -/
theorem copyJobAndNonceRangeSized_cases (miner : Miner) (batchSize : Word) :
    copyJobAndNonceRangeSized miner batchSize = (miner, none) ∨
    (miner.stop = false ∧ miner.paused = false ∧ miner.job.valid = true ∧
      2 ^ 32 ≤ miner.nextNonce.toNat ∧
      copyJobAndNonceRangeSized miner batchSize =
        ({ miner with job := { miner.job with valid := false }, nonceExhausted := true }, none)) ∨
    (miner.stop = false ∧ miner.paused = false ∧ miner.job.valid = true ∧
      ∃ (next : BitVec 64) (start range : Word),
        start.toNat = miner.nextNonce.toNat ∧ 1 ≤ range.toNat ∧
        start.toNat + range.toNat ≤ 2 ^ 32 ∧ next.toNat = start.toNat + range.toNat ∧
        copyJobAndNonceRangeSized miner batchSize =
          ({ miner with nextNonce := next },
            some ({ miner.job with pauseEpoch := miner.pauseEpoch }, start, range))) := by
  by_cases enabled : (!miner.stop && !miner.paused && miner.job.valid) = true
  · obtain ⟨⟨running, unpaused⟩, valid⟩ :
        (miner.stop = false ∧ miner.paused = false) ∧ miner.job.valid = true := by
      simpa using enabled
    by_cases used : miner.nextNonce > 0xffffffff
    · refine .inr (.inl ⟨running, unpaused, valid, ?_, ?_⟩)
      · have : (0xffffffff : BitVec 64).toNat < miner.nextNonce.toNat := used
        exact this
      · simp only [copyJobAndNonceRangeSized, enabled, used, if_true]
    · have fresh : miner.nextNonce.toNat ≤ 0xffffffff := by
        simpa [BitVec.lt_def] using used
      obtain ⟨range, isRange, positive, within⟩ :=
        clippedRange_spec miner.nextNonce batchSize fresh
      refine .inr (.inr ⟨running, unpaused, valid, miner.nextNonce + range.setWidth 64,
        miner.nextNonce.setWidth 32, range, ?_, positive, ?_, ?_, ?_⟩)
      · rw [BitVec.toNat_setWidth]
        omega
      · rw [BitVec.toNat_setWidth]
        omega
      · rw [BitVec.toNat_add, BitVec.toNat_setWidth, BitVec.toNat_setWidth]
        omega
      · simp only [copyJobAndNonceRangeSized, enabled, used, if_true, if_false, isRange]
  · left
    simp only [copyJobAndNonceRangeSized, enabled]
    rfl

/-- Reporting a match touches the queue only. -/
theorem queueScanMatch_frame (miner : Miner) (job : ActiveJob) (nonce : Word)
    (hashWords : Vector Word 8) :
    ∃ shares, queueScanMatch miner job nonce hashWords = { miner with shares := shares } := by
  unfold queueScanMatch
  split
  · exact ⟨_, rfl⟩
  · exact ⟨miner.shares, rfl⟩

/-- Counting hashes touches the counters only. -/
theorem countHashes_frame (miner : Miner) (worker : WorkerId) (job : ActiveJob) (count : Word) :
    ∃ hashes threadHashes openclHashes cudaHashes, countHashes miner worker job count =
      { miner with
        hashes := hashes
        threadHashes := threadHashes
        openclHashes := openclHashes
        cudaHashes := cudaHashes } := by
  unfold countHashes
  split
  · cases worker with
    | cpu id =>
        simp only
        split
        · exact ⟨_, _, _, _, rfl⟩
        · exact ⟨_, miner.threadHashes, miner.openclHashes, miner.cudaHashes, rfl⟩
    | opencl id =>
        simp only
        split
        · exact ⟨_, _, _, _, rfl⟩
        · exact ⟨_, miner.threadHashes, miner.openclHashes, miner.cudaHashes, rfl⟩
    | cuda => exact ⟨_, miner.threadHashes, miner.openclHashes, _, rfl⟩
  · exact ⟨miner.hashes, miner.threadHashes, miner.openclHashes, miner.cudaHashes, rfl⟩

theorem minerSetPaused_eq (miner : Miner) (paused : Bool) :
    minerSetPaused miner paused =
      { miner with
        paused := paused
        pauseEpoch :=
          if !miner.paused && paused then miner.pauseEpoch + 1 else miner.pauseEpoch } := by
  unfold minerSetPaused
  split <;> rfl

theorem queueScanMatch_late {miner : Miner} {job : ActiveJob}
    (late : scanResultStillCurrentLocked miner job = false) (nonce : Word)
    (hashWords : Vector Word 8) : queueScanMatch miner job nonce hashWords = miner := by
  simp [queueScanMatch, late]

theorem countHashes_late {miner : Miner} {job : ActiveJob}
    (late : scanResultStillCurrentLocked miner job = false) (worker : WorkerId) (count : Word) :
    countHashes miner worker job count = miner := by
  simp [countHashes, late]

end BtcRig.Mining.State
