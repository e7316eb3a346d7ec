/-
# BtcRig.Mining.PoolView — what the pool recomputes from a share

A share is submitted as four texts: job id, extranonce2, time and nonce.  The pool
rebuilds the header from its own template and those texts, hashes it and compares
the result with the target.  `popped_share_valid` says that it finds what the
miner found, for every share of every run whose workers scan with the portable
range scan.

The steps: the target words compare as the target does
(`hashWordsMeetTarget_iff`; so do the other copies of the comparison,
`comparisons_agree`), and the words a worker hashes are those of the header
with the nonce bytes filled in (`sha256d80_withNonce`).
-/
import BtcRig.Gpu.Device
import BtcRig.Mining.Shares
import BtcRig.Mining.Target

namespace BtcRig.Mining.PoolView

open BtcRig.Theory
open BtcRig.Theory.Words
open BtcRig.Theory.Sha256
open BtcRig.Hash.Sha256d
open BtcRig.Gpu.Device (meetsTargetWords meetsTargetWords_eq)
open BtcRig.Mining.Job
open BtcRig.Mining.State
open BtcRig.Mining.Workers
open BtcRig.Mining.Shares

set_option autoImplicit false

/-! ## The target as words -/

theorem digitSum_getD (ds : List Nat) (n : Nat) (size : ds.length = n) (b : Nat) :
    digitSum b (fun i => ds.getD i 0) n = Nat.ofDigits b ds := by
  rw [← size, ofDigits_eq_digitSum]

theorem leNat_target (target : Vector Byte 32) :
    leNat target.toList = Nat.ofDigits (2 ^ 32)
      ((List.range 8).map fun i => (loadLe (target.toList.drop (4 * i))).toNat) := by
  have words := flatMap_toBe_loadBe 8 target.toList (by simp)
  conv_lhs => rw [← words, leNat_flatMap_toBe, List.map_map]
  simp only [Function.comp_def, loadLe_eq_byteSwap]

/-- Comparing words from the top compares the hash with the target. -/
theorem hashWordsMeetTarget_iff (job : MinerJob) (hashWords : Vector Word 8) :
    hashWordsMeetTarget hashWords (activate job).targetWords = true ↔
      leNat (hashOfWords hashWords).toList ≤ leNat job.target.toList := by
  have hash : leNat (hashOfWords hashWords).toList =
      Nat.ofDigits (2 ^ 32) (hashWords.toList.map fun w => (byteSwap w).toNat) := by
    rw [← leNat_flatMap_toBe]
    rfl
  have target : leNat job.target.toList =
      Nat.ofDigits (2 ^ 32) ((activate job).targetWords.toList.map BitVec.toNat) := by
    rw [leNat_target, toList_eight]
    simp [activate]
    rfl
  have hashDigit (i : Nat) : (hashWords.toList.map fun w => (byteSwap w).toNat).getD i 0 =
      (bswap32 (hashWords.toList.getD i 0)).toNat :=
    List.getD_map (f := fun w => (byteSwap w).toNat) (d := 0) ..
  have targetDigit (i : Nat) : ((activate job).targetWords.toList.map BitVec.toNat).getD i 0 =
      ((activate job).targetWords.toList.getD i 0).toNat :=
    List.getD_map (f := BitVec.toNat) (d := 0) ..
  rw [hash, target, ← digitSum_getD _ 8 (by simp), ← digitSum_getD _ 8 (by simp),
    hashWordsMeetTarget]
  simp only [hashDigit, targetDigit]
  exact leFrom_iff 8 (fun i _ => BitVec.isLt _) (fun i _ => BitVec.isLt _)

/-- The loop of `miner_set_job` over `load_le32(job->target + i * 4)`. -/
def targetWordsOf (target : Vector Byte 32) : Vector Word 8 :=
  Vector.ofFn fun i : Fin 8 => loadLe (target.toList.drop (i * 4))

/-- **Every comparison of a hash with a target is the comparison of two 256-bit integers**:
the one on words of the scans, the unrolled one of the GPU kernels and the one on bytes. -/
theorem comparisons_agree (hashWords : Vector Word 8) (target : Vector Byte 32) :
    (∀ job : MinerJob, job.target = target → (activate job).targetWords = targetWordsOf target) ∧
    hashWordsMeetTarget hashWords (targetWordsOf target) =
      minerHashMeetsTarget (hashOfWords hashWords) target ∧
    meetsTargetWords hashWords (targetWordsOf target) =
      minerHashMeetsTarget (hashOfWords hashWords) target ∧
    (minerHashMeetsTarget (hashOfWords hashWords) target = true ↔
      leNat (hashOfWords hashWords).toList ≤ leNat target.toList) := by
  have bytes := Target.minerHashMeetsTarget_iff (hashOfWords hashWords) target
  have words : hashWordsMeetTarget hashWords (targetWordsOf target) =
      minerHashMeetsTarget (hashOfWords hashWords) target := by
    rw [Bool.eq_iff_iff, bytes]
    exact hashWordsMeetTarget_iff { zeroJob with target := target } hashWords
  refine ⟨?_, words, ?_, bytes⟩
  · rintro job rfl
    rfl
  · rw [meetsTargetWords_eq, words]

/-! ## The header with a nonce -/

/-- Bytes 76..79 overwritten. -/
def withNonce (header : Vector Byte 80) (nonceLe : Vector Byte 4) : List Byte :=
  header.toList.take 76 ++ nonceLe.toList

theorem loadBe_congr {p q : List Byte} (same : ∀ j < 4, p[j]? = q[j]?) : loadBe p = loadBe q := by
  simp only [loadBe, List.getD_eq_getElem?_getD, same 0 (by decide), same 1 (by decide),
    same 2 (by decide), same 3 (by decide)]

/-- The tail words a worker hashes are those of the header with its nonce. -/
theorem tailWordsOf_withNonce (job : MinerJob) (nonce : Word) :
    tailWordsOf ((job.header.toList.drop 64).take 12 ++
      [byteAt nonce 0, byteAt nonce 1, byteAt nonce 2, byteAt nonce 3]) =
      (activate job).tailWords.setQuad3 (bswap32 nonce) := by
  have kept : ((job.header.toList.drop 64).take 12).length = 12 := by simp
  apply Vector.ext
  intro i hi
  by_cases last : i = 3
  · subst last
    have bytes : ((job.header.toList.drop 64).take 12 ++
        [byteAt nonce 0, byteAt nonce 1, byteAt nonce 2, byteAt nonce 3]).drop 12 =
        [byteAt nonce 0, byteAt nonce 1, byteAt nonce 2, byteAt nonce 3] := List.drop_left' kept
    simp only [Vector.getElem_set_self, tailWordsOf, Vector.getElem_ofFn, loadBe32, Nat.reduceMul,
      bytes]
    rfl
  · have other : ¬3 = i := by omega
    simp only [Vector.getElem_set, other, if_false, tailWordsOf, activate, Vector.getElem_ofFn,
      loadBe32]
    apply loadBe_congr
    intro j small
    rw [List.getElem?_drop, List.getElem?_append_left (by omega), List.getElem?_take_of_lt (by omega),
      List.getElem?_drop, List.getElem?_drop, Nat.add_assoc]

theorem sha256d80_withNonce (backend : PortableBackend) (job : MinerJob) (nonce : Word) :
    sha256d80 (withNonce job.header
        #v[byteAt nonce 0, byteAt nonce 1, byteAt nonce 2, byteAt nonce 3]) =
      (hashOfWords (sha256dTailWordsFunc backend (activate job).midstate
        ((activate job).tailWords.setQuad3 (bswap32 nonce)))).toList := by
  have full : (job.header.toList.take 64).length = 64 := by simp
  have split : withNonce job.header
      #v[byteAt nonce 0, byteAt nonce 1, byteAt nonce 2, byteAt nonce 3] =
      job.header.toList.take 64 ++ ((job.header.toList.drop 64).take 12 ++
        [byteAt nonce 0, byteAt nonce 1, byteAt nonce 2, byteAt nonce 3]) := by
    rw [withNonce, show 76 = 64 + 12 from rfl, List.take_add, List.append_assoc]
    rfl
  rw [split, sha256d80_eq_midstateHash _ _ full (by simp), tailWordsOf_withNonce]
  show _ = (hashOfWords (sha256dTailWordsFunc backend
    (sha256d80MidstatePrepare (job.header.toList.take 64)) _)).toList
  rw [sha256dTailWordsFunc_prepare backend _ full]
  rfl

/-! ## Scans and shares -/

/-- A worker that scans with the portable range scan; it never fails. -/
def genericScanner (backend : PortableBackend) : Scanner :=
  fun midstate tailWords targetWords start count =>
    (sha256dScanNonceRangeGeneric backend midstate tailWords targetWords start count, true)

/-- Every worker step of the event scans with the portable range scan. -/
def ScansGenerically (e : Event) : Prop :=
  ∀ w batch scan, e = .worker w batch scan → ∃ backend, scan = genericScanner backend

/-- A match of the portable scan: the words are those of the header with this nonce,
and they meet the target. -/
def Found (job : MinerJob) (m : Word × Vector Word 8) : Prop :=
  (∃ backend, m.2 = sha256dTailWordsFunc backend (activate job).midstate
    ((activate job).tailWords.setQuad3 (bswap32 m.1))) ∧
    hashWordsMeetTarget m.2 (activate job).targetWords = true

theorem fitting_of_generic {e : Event} (generic : ScansGenerically e) : Fitting Found e := by
  intro w batch scan isWorker job start count m member
  obtain ⟨backend, rfl⟩ := generic w batch scan isWorker
  simp only [genericScanner, sha256dScanNonceRangeGeneric, List.mem_filterMap] at member
  obtain ⟨i, -, reported⟩ := member
  split at reported
  · rename_i meets
    cases reported
    exact ⟨⟨backend, rfl⟩, meets⟩
  · cases reported

/-- The nonce text of `send_submit_share`. -/
def nonceHex (share : MinerShare) : List Char := Hex.format 8 share.nonce.toNat

/-- The pool, rebuilding `job` from the template it sent and the share's own texts,
gets a header with the share's hash. -/
def PoolAccepts (share : MinerShare) (job : MinerJob) : Prop :=
  ∀ (jobId prevhash coinb1 coinb2 : List Char) (merkle : List (List Char))
    (version nbits ntime extranonce1 extranonce2 : List Char) (difficulty : ℚ),
    minerBuildJob jobId prevhash coinb1 coinb2 merkle version nbits ntime extranonce1 extranonce2
      difficulty = some job →
    ∃ rebuilt nonceLe,
      minerBuildJob jobId prevhash coinb1 coinb2 merkle version nbits share.ntime.1 extranonce1
        share.extranonce2.1 difficulty = some rebuilt ∧
      hexU32ToLe (nonceHex share) = some nonceLe ∧
      sha256d80 (withNonce rebuilt.header nonceLe) = share.hash.toList

theorem poolAccepts_of_found {job : MinerJob} {m : Word × Vector Word 8} (found : Found job m)
    (k : Nat) : PoolAccepts (shareOf (numbered k job) m) job := by
  intro jobId prevhash coinb1 coinb2 merkle version nbits ntime extranonce1 extranonce2 difficulty
    built
  obtain ⟨-, -, isExtranonce2, isNtime, -⟩ := minerBuildJob_fields built
  obtain ⟨backend, isHash⟩ := found.1
  refine ⟨job, _, ?_, hexU32ToLe_nonce m.1, ?_⟩
  · show minerBuildJob jobId prevhash coinb1 coinb2 merkle version nbits job.ntime.1 extranonce1
      job.extranonce2.1 difficulty = some job
    rw [isNtime, isExtranonce2]
    exact built
  · rw [sha256d80_withNonce backend, ← isHash]
    rfl

/-- **Every popped share is valid from the pool's side.**  In every run of workers
that scan with the portable range scan, interleaved with job changes, pauses, stops
and pops in any order, a popped share comes from a job that was set: the pool's
rebuilt header hashes to the share's hash, which is at most the job's target. -/
theorem popped_share_valid (threads opencl cuda : Nat) (es : List Event)
    (generic : ∀ e ∈ es, ScansGenerically e) (share : MinerShare)
    (popped : .popped (some share) ∈ (run (initial threads opencl cuda) es).2) :
    ∃ k job, (jobsOf es)[k]? = some job ∧ share.seq = BitVec.ofNat 64 (k + 1) ∧
      share.jobId = job.jobId ∧ PoolAccepts share job ∧
      leNat share.hash.toList ≤ leNat job.target.toList := by
  have sourced := sourced_run Found threads opencl cuda es
    fun e member => fitting_of_generic (generic e member)
  have inPopped : share ∈ poppedOf (run (initial threads opencl cuda) es).2 :=
    List.mem_filterMap.mpr ⟨_, popped, rfl⟩
  obtain ⟨k, job, m, set, found, rfl⟩ := sourced.shares share (List.mem_append_left _ inPopped)
  exact ⟨k, job, set, rfl, rfl, poolAccepts_of_found found k,
    (hashWordsMeetTarget_iff job m.2).mp found.2⟩

/-- A device scans the first nonce of a job with a wide target, and its share is
popped and passes at the pool. -/
theorem popped_share_valid_example :
    let turn : Event := .worker .cuda 1 (genericScanner .fastC)
    ∃ job share,
      minerBuildJob "1".toList (List.replicate 64 '0') [] [] [] "20000000".toList "1d00ffff".toList
        "5f5e1000".toList "00".toList "01".toList (65535 / (16777215 * 16777216)) = some job ∧
      .popped (some share) ∈ (run (initial 0 0 1) [.setJob job, turn, turn, turn, .popShare]).2 ∧
      PoolAccepts share job ∧ leNat share.hash.toList ≤ leNat job.target.toList := by
  intro turn
  have one : (minerBuildJob "1".toList (List.replicate 64 '0') [] [] [] "20000000".toList
      "1d00ffff".toList "5f5e1000".toList "00".toList "01".toList
      (65535 / (16777215 * 16777216))).any (fun job =>
        (poppedOf (run (initial 0 0 1) [.setJob job, turn, turn, turn, .popShare]).2).length == 1) =
      true := by
    decide +kernel
  obtain ⟨job, built, one⟩ := (Option.any_eq_true _ _).mp one
  obtain ⟨share, only⟩ := List.length_eq_one_iff.mp (beq_iff_eq.mp one)
  have inPopped : share ∈ poppedOf (run (initial 0 0 1) [.setJob job, turn, turn, turn, .popShare]).2 :=
    only ▸ List.mem_singleton_self share
  obtain ⟨output, popped, isShare⟩ := List.mem_filterMap.mp inPopped
  cases output with
  | popped found =>
      cases isShare
      have generic : ∀ e ∈ [.setJob job, turn, turn, turn, .popShare], ScansGenerically e := by
        intro e member w batch scan isWorker
        simp only [turn, List.mem_cons, List.not_mem_nil, or_false] at member
        rcases member with rfl | rfl | rfl | rfl | rfl <;> cases isWorker
        · exact ⟨.fastC, rfl⟩
        · exact ⟨.fastC, rfl⟩
        · exact ⟨.fastC, rfl⟩
      obtain ⟨k, job', set, -, -, accepts, meets⟩ :=
        popped_share_valid 0 0 1 _ generic share popped
      have same : job' = job := by
        have member := List.mem_of_getElem? set
        simpa [jobsOf, turn] using member
      subst same
      exact ⟨job', share, built, popped, accepts, meets⟩
  | handed => cases isShare
  | raised => cases isShare
  | exhaustedRead => cases isShare

end BtcRig.Mining.PoolView
